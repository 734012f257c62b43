import ResumableForth.Proofs.Bootstrap

/-! Structured programs and branches. A word whose body is the layout of a structured program is
followed through its body: leaves do what they do by themselves, and branches lead where the control
structure says. -/
namespace ResumableForth
namespace Machine

/-- A word that runs: the machine that has come to its name, the name and the body. -/
structure Call where
  caller : StandardMachine
  name : String
  body : List String

namespace Call

def inside (call : Call) (index : Nat) (store : Store) : StandardMachine :=
  { call.caller with
    stack := store.stack
    output := store.output
    input := call.body
    cursor := index
    mode := .execute
    frames := [⟨call.name, index, call.caller.input, call.caller.cursor + 1, .execute⟩]
    room := call.caller.room - 1
    journal := {} }

def back (call : Call) (store : Store) : StandardMachine :=
  { call.caller with
    stack := store.stack
    output := store.output
    cursor := call.caller.cursor + 1
    mode := .execute
    frames := []
    journal := {} }

/-- The native words mean what they are meant to mean, the call is within its bound, and indices into
the body can be counted. -/
structure Ready (call : Call) : Prop where
  natives : ∀ primitive, call.caller.dictionary.Knows primitive
  room : call.caller.room ≠ 0
  small : call.body.length < 2 ^ 63

variable {call : Call} {index : Nat} {store : Store} {rest : List String}

theorem tick_native (ready : call.Ready) (primitive : Primitive)
    (next : call.body.drop index = primitive.entry.1 :: rest) :
    (call.inside index store).tick Primitive.handler =
      some (primitive.run (call.inside (index + 1) store)) :=
  tick_of_knows (m := call.inside index store) primitive rfl (getElem?_of_drop next)
    (ready.natives primitive) (.inl rfl)

theorem readTarget_inside (ready : call.Ready) (word : String) {target : Nat}
    (next : call.body.drop index = Decimal.numeral target :: rest)
    (inBody : target ≤ call.body.length) :
    Action.readTarget word (call.inside index store) =
      .ok target (call.inside (index + 1) store) := by
  have token : (call.inside index store).token? = some (Decimal.numeral target) :=
    getElem?_of_drop next
  have small : target < 2 ^ 63 := Nat.lt_of_le_of_lt inBody ready.small
  have natural : (0 : Int64) ≤ Int64.ofNat target := by
    rw [Int64.le_iff_toInt_le, Int64.toInt_ofNat_of_lt small]
    exact Int.natCast_nonneg target
  change EStateM.bind Action.nextToken _ (call.inside index store) = _
  rw [EStateM.bind, Action.nextToken, token]
  simp only [Decimal.readInt64?_numeral small, Option.filter_some, natural, decide_true, if_true,
    Int64.toInt_ofNat_of_lt small, Int.toNat_natCast]
  change (if target ≤ call.body.length then pure target else _ : Action Primitive Nat)
    (call.inside (index + 1) store) = _
  rw [if_pos inBody]
  rfl

theorem jump_inside {target : Nat} (inBody : target ≤ call.body.length) :
    Action.jump target (call.inside index store) = .ok () (call.inside target store) :=
  if_pos inBody

theorem tick_branch (ready : call.Ready) {target : Nat}
    (next : call.body.drop index = Program.branch target ++ rest)
    (inBody : target ≤ call.body.length) :
    (call.inside index store).tick Primitive.handler =
      some (.ok () (call.inside target store)) := by
  refine (tick_native ready .branch next).trans ?_
  change some (EStateM.bind (Action.readTarget "BRANCH") _ _) = _
  rw [EStateM.bind, readTarget_inside ready "BRANCH" (drop_succ_of_drop next) inBody]
  exact congrArg some (jump_inside inBody)

theorem tick_branchUnless (ready : call.Ready) {target : Nat} {output : String} (taken : Bool)
    (stack : List Value) (next : call.body.drop index = Program.branchUnless target ++ rest)
    (inBody : target ≤ call.body.length) :
    (call.inside index ⟨.bool taken :: stack, output⟩).tick Primitive.handler =
      some (.ok () (call.inside (if taken then index + 2 else target) ⟨stack, output⟩)) := by
  refine (tick_native ready .branchUnless next).trans ?_
  change some (EStateM.bind (Action.readTarget "BRANCH?") _
    (call.inside (index + 1) ⟨stack, output⟩)) = _
  rw [EStateM.bind, readTarget_inside ready "BRANCH?" (drop_succ_of_drop next) inBody]
  cases taken with
  | true => rfl
  | false => exact congrArg some (jump_inside inBody)

def Fails (call : Call) (index : Nat) (store : Store) (kind : FaultKind) (after : Store) : Prop :=
  ∃ place before fault last, Reaches 0 (call.inside index store) (call.inside place before) ∧
    (call.inside place before).tick Primitive.handler = some (.error fault (call.inside last after)) ∧
    fault.kind = kind

/-- The machine follows an evaluation from one place in the body to another. Where fuel did not suffice
for the evaluation, it does not suffice for the machine. -/
def Follows (call : Call) (first last fuel : Nat) (store : Store) : Option Effect → Prop
  | some (.ok _ after) => Reaches 0 (call.inside first store) (call.inside last after)
  | some (.error kind after) => call.Fails first store kind after
  | none => (call.inside first store).drain Primitive.handler 0 fuel = none

namespace Follows

variable {first middle last fuel : Nat} {effect : Option Effect} {between : Store}

theorem refl (call : Call) (index fuel : Nat) (store : Store) :
    call.Follows index index fuel store (some (.ok () store)) :=
  Reaches.refl _

theorem of_reaches (reaches : Reaches 0 (call.inside first store) (call.inside middle between))
    (follows : call.Follows middle last fuel between effect) :
    call.Follows first last fuel store effect := by
  match effect with
  | some (.ok _ after) => exact reaches.trans follows
  | some (.error kind after) =>
    obtain ⟨place, before, fault, stop, later, failed⟩ := follows
    exact ⟨place, before, fault, stop, reaches.trans later, failed⟩
  | none => exact reaches.drain_eq_none follows

theorem of_tick
    (ticked : (call.inside first store).tick Primitive.handler =
      some (.ok () (call.inside middle between)))
    (follows : call.Follows middle last fuel between effect) :
    call.Follows first last (fuel + 1) store effect := by
  match effect with
  | some (.ok _ after) => exact .tick Nat.zero_lt_one ticked follows
  | some (.error kind after) =>
    obtain ⟨place, before, fault, stop, later, failed⟩ := follows
    exact ⟨place, before, fault, stop, .tick Nat.zero_lt_one ticked later, failed⟩
  | none => exact (drain_of_tick Nat.zero_lt_one ticked fuel).trans follows

theorem of_fault {kind : FaultKind} {after : Store} {fault : Fault}
    (ticked : (call.inside first store).tick Primitive.handler =
      some (.error fault (call.inside middle after))) (same : fault.kind = kind) :
    call.Follows first last fuel store (some (.error kind after)) :=
  ⟨first, store, fault, middle, .refl _, ticked, same⟩

theorem mono {less : Nat} (follows : call.Follows first last fuel store effect)
    (le : less ≤ fuel) : call.Follows first last less store effect := by
  match effect with
  | some (.ok _ after) => exact follows
  | some (.error kind after) => exact follows
  | none =>
    change (call.inside first store).drain Primitive.handler 0 less = none
    cases drained : (call.inside first store).drain Primitive.handler 0 less with
    | none => rfl
    | some outcome =>
      have more := drain_add drained (fuel - less)
      rw [Nat.add_sub_cancel' le] at more
      exact absurd (follows.symm.trans more) nofun

theorem andThen {next : Store → Option Effect}
    (head : call.Follows first middle fuel store effect)
    (tail : ∀ after, call.Follows middle last fuel after (next after)) :
    call.Follows first last fuel store (Store.andThen effect next) := by
  match effect with
  | some (.ok _ after) => exact of_reaches head (tail after)
  | some (.error kind after) => exact head
  | none => exact head

theorem extend (follows : call.Follows first middle fuel store effect)
    (onward : ∀ after, Reaches 0 (call.inside middle after) (call.inside last after)) :
    call.Follows first last fuel store effect := by
  match effect with
  | some (.ok _ after) => exact Reaches.trans follows (onward after)
  | some (.error kind after) => exact follows
  | none => exact follows

end Follows

variable {first last target fuel : Nat}

/-- A token that is a leaf does by itself what it does inside the word. -/
theorem follows_leaf (ready : call.Ready) {token : String}
    (leaf : call.caller.dictionary.Leaf token) (next : call.body.drop index = token :: rest)
    (fuel : Nat) (store : Store) :
    call.Follows index (index + 1) fuel store (some (Program.leafEffect token store)) := by
  rw [Program.leafEffect]
  cases named : Primitive.localNamed? token with
  | some primitive =>
    obtain ⟨isLocal, rfl⟩ := Primitive.localNamed?_eq_some named
    have ticked : (call.inside index store).tick Primitive.handler =
        some (primitive.run (call.inside (index + 1) store)) := tick_native ready primitive next
    have both := (Action.Composed.ofLocal Value.closed_true.stable isLocal).sameEffect
      (start { natives := Primitive.lexicon }) (call.inside (index + 1) store) store.stack store.output
    change SameEffect _ _ (primitive.run store.machine)
      (primitive.run (call.inside (index + 1) store)) at both
    change call.Follows index (index + 1) fuel store
      (some (Outcome.effect (primitive.run store.machine)))
    generalize primitive.run store.machine = outcome at both
    generalize primitive.run (call.inside (index + 1) store) = outcome' at both ticked
    cases both with
    | ok _ stack output => exact Reaches.single Nat.zero_lt_one ticked
    | error fault fault' same stack output => exact .of_fault ticked same.symm
  | none =>
    have unknown : call.caller.dictionary.find? token = none := by
      rcases leaf with ⟨primitive, isLocal, same⟩ | ⟨unknown, -⟩
      · exact absurd same (Primitive.entry_ne_of_localNamed? named isLocal)
      · exact unknown
    have asked : (call.inside (index + 1) store).request token =
        .act (Action.push (Value.literal token)) := by
      simp only [request, inside, unknown]
    exact Reaches.single Nat.zero_lt_one
      (tick_of_request (m := call.inside index store) rfl (getElem?_of_drop next) asked)

/-- A branch on a condition leads on to the one side or to the other. -/
theorem follows_condition (ready : call.Ready)
    (next : call.body.drop first = Program.branchUnless target ++ rest)
    (inBody : target ≤ call.body.length) {yes no : Store → Option Effect}
    (ifTrue : ∀ after, call.Follows (first + 2) last fuel after (yes after))
    (ifFalse : ∀ after, call.Follows target last fuel after (no after)) (store : Store) :
    call.Follows first last (fuel + 1) store (store.condition yes no) := by
  match store with
  | ⟨[], output⟩ => exact .of_fault (tick_native ready .branchUnless next) rfl
  | ⟨.bool true :: stack, output⟩ =>
    exact .of_tick (tick_branchUnless ready true stack next inBody) (ifTrue _)
  | ⟨.bool false :: stack, output⟩ =>
    exact .of_tick (tick_branchUnless ready false stack next inBody) (ifFalse _)
  | ⟨.null :: _, _⟩ | ⟨.int _ :: _, _⟩ | ⟨.float _ :: _, _⟩ | ⟨.str _ :: _, _⟩ | ⟨.word _ :: _, _⟩ =>
    exact .of_fault (tick_native ready .branchUnless next) rfl

theorem follows_branch (ready : call.Ready)
    (next : call.body.drop first = Program.branch target ++ rest)
    (inBody : target ≤ call.body.length) {effect : Option Effect}
    (follows : call.Follows target last fuel store effect) :
    call.Follows first last (fuel + 1) store effect :=
  .of_tick (tick_branch ready next inBody) follows

section Loops

variable {middle : Nat} {body : Store → Option Effect} (ready : call.Ready)
include ready

theorem follows_repeatUntil (inner : ∀ store, call.Follows first middle fuel store (body store))
    (next : call.body.drop middle = Program.branchUnless first ++ rest)
    (inBody : first ≤ call.body.length) {count : Nat} (enough : count ≤ fuel) (store : Store) :
    call.Follows first (middle + 2) count store (Store.repeatUntil body count store) := by
  induction count generalizing store with
  | zero => exact drain_zero_of_above Nat.zero_lt_one
  | succ count ih =>
    refine ((inner store).mono enough).andThen fun after => ?_
    exact follows_condition ready next inBody (fun _ => .refl ..) (ih (Nat.le_of_succ_le enough)) after

theorem follows_repeatEndlessly (inner : ∀ store, call.Follows first middle fuel store (body store))
    (next : call.body.drop middle = Program.branch first ++ rest)
    (inBody : first ≤ call.body.length) {count : Nat} (enough : count ≤ fuel) (store : Store) :
    call.Follows first (middle + 2) count store (Store.repeatEndlessly body count store) := by
  induction count generalizing store with
  | zero => exact drain_zero_of_above Nat.zero_lt_one
  | succ count ih =>
    refine ((inner store).mono enough).andThen fun after => ?_
    exact follows_branch ready next inBody (ih (Nat.le_of_succ_le enough) after)

theorem follows_repeatWhile {test : Store → Option Effect} {rest' : List String}
    (tested : ∀ store, call.Follows first middle fuel store (test store))
    (next : call.body.drop middle = Program.branchUnless (last + 2) ++ rest)
    (inner : ∀ store, call.Follows (middle + 2) last fuel store (body store))
    (next' : call.body.drop last = Program.branch first ++ rest')
    (inBody : first ≤ call.body.length) (inBody' : last + 2 ≤ call.body.length) {count : Nat}
    (enough : count ≤ fuel) (store : Store) :
    call.Follows first (last + 2) count store (Store.repeatWhile test body count store) := by
  induction count generalizing store with
  | zero => exact drain_zero_of_above Nat.zero_lt_one
  | succ count ih =>
    have less : count ≤ fuel := Nat.le_of_succ_le enough
    refine ((tested store).mono enough).andThen fun after => ?_
    refine follows_condition ready next inBody' (fun after => ?_) (fun _ => .refl ..) after
    refine ((inner after).mono less).andThen fun after => ?_
    exact (follows_branch ready next' inBody (ih less after)).mono (Nat.le_succ count)

end Loops

/-- Wherever its layout stands in the body, the machine follows a program. -/
def Runs (call : Call) (program : Program) : Prop :=
  ∀ offset rest, offset ≤ call.body.length → call.body.drop offset = program.layout offset ++ rest →
    ∀ fuel store, call.Follows offset (offset + program.size) fuel store (program.eval fuel store)

theorem drop_add_of_drop {part : List String} {size : Nat} (length : part.length = size)
    (placed : call.body.drop index = part ++ rest) : call.body.drop (index + size) = rest := by
  rw [← List.drop_drop, placed, ← length, List.drop_left]

theorem add_size_le {part : List String} {size : Nat} (length : part.length = size)
    (placed : call.body.drop index = part ++ rest) (inBody : index ≤ call.body.length) :
    index + size ≤ call.body.length := by
  have lengths := congrArg List.length placed
  rw [List.length_drop, List.length_append, length] at lengths
  omega

namespace Runs

variable {yes no test body after : Program}

theorem leaf (ready : call.Ready) {token : String} (leaf : call.caller.dictionary.Leaf token)
    (later : call.Runs after) : call.Runs (.leaf token after) := by
  intro offset rest inBody placed fuel store
  rw [Program.layout, List.append_assoc] at placed
  have atAfter : call.body.drop (offset + 1) = after.layout (offset + 1) ++ rest :=
    drop_succ_of_drop placed
  have inAfter : offset + 1 ≤ call.body.length := add_size_le rfl placed inBody
  rw [Program.size, ← Nat.add_assoc]
  exact (follows_leaf ready leaf placed fuel store).andThen (later _ _ inAfter atAfter fuel)

theorem ifThen (ready : call.Ready) (inYes : call.Runs yes) (later : call.Runs after) :
    call.Runs (.ifThen yes after) := by
  intro offset rest inBody placed fuel store
  rw [Program.layout, List.append_assoc, List.append_assoc] at placed
  have atYes := drop_add_of_drop (Program.length_branchUnless _) placed
  have yesBody := add_size_le (Program.length_branchUnless _) placed inBody
  have atAfter := drop_add_of_drop (Program.length_layout yes _) atYes
  have afterBody := add_size_le (Program.length_layout yes _) atYes yesBody
  have chosen := follows_condition ready placed afterBody (inYes _ _ yesBody atYes fuel)
    (fun _ => .refl ..) store
  have whole := (chosen.mono (Nat.le_succ fuel)).andThen (later _ _ afterBody atAfter fuel)
  rw [Program.size, ← Nat.add_assoc, ← Nat.add_assoc]
  exact whole

theorem ifElse (ready : call.Ready) (inYes : call.Runs yes) (inNo : call.Runs no)
    (later : call.Runs after) : call.Runs (.ifElse yes no after) := by
  intro offset rest inBody placed fuel store
  simp only [Program.layout, List.append_assoc] at placed
  have atYes := drop_add_of_drop (Program.length_branchUnless _) placed
  have yesBody := add_size_le (Program.length_branchUnless _) placed inBody
  have atBranch := drop_add_of_drop (Program.length_layout yes _) atYes
  have branchBody := add_size_le (Program.length_layout yes _) atYes yesBody
  have atNo := drop_add_of_drop (Program.length_branch _) atBranch
  have noBody := add_size_le (Program.length_branch _) atBranch branchBody
  have atAfter := drop_add_of_drop (Program.length_layout no _) atNo
  have afterBody := add_size_le (Program.length_layout no _) atNo noBody
  have beyond : ∀ store, Reaches 0 (call.inside (offset + 2 + yes.size) store)
      (call.inside (offset + 2 + yes.size + 2 + no.size) store) :=
    fun _ => .single Nat.zero_lt_one (tick_branch ready atBranch afterBody)
  have chosen := follows_condition ready placed noBody
    (fun store => (inYes _ _ yesBody atYes fuel store).extend beyond) (inNo _ _ noBody atNo fuel) store
  have whole := (chosen.mono (Nat.le_succ fuel)).andThen (later _ _ afterBody atAfter fuel)
  simp only [Program.size, ← Nat.add_assoc]
  exact whole

theorem untilLoop (ready : call.Ready) (inner : call.Runs body) (later : call.Runs after) :
    call.Runs (.untilLoop body after) := by
  intro offset rest inBody placed fuel store
  simp only [Program.layout, List.append_assoc] at placed
  have atBranch := drop_add_of_drop (Program.length_layout body _) placed
  have branchBody := add_size_le (Program.length_layout body _) placed inBody
  have atAfter := drop_add_of_drop (Program.length_branchUnless _) atBranch
  have afterBody := add_size_le (Program.length_branchUnless _) atBranch branchBody
  have loop := follows_repeatUntil ready (inner _ _ inBody placed fuel) atBranch inBody
    (Nat.le_refl fuel) store
  simp only [Program.size, ← Nat.add_assoc]
  exact loop.andThen (later _ _ afterBody atAfter fuel)

theorem endless (ready : call.Ready) (inner : call.Runs body) (later : call.Runs after) :
    call.Runs (.endless body after) := by
  intro offset rest inBody placed fuel store
  simp only [Program.layout, List.append_assoc] at placed
  have atBranch := drop_add_of_drop (Program.length_layout body _) placed
  have branchBody := add_size_le (Program.length_layout body _) placed inBody
  have atAfter := drop_add_of_drop (Program.length_branch _) atBranch
  have afterBody := add_size_le (Program.length_branch _) atBranch branchBody
  have loop := follows_repeatEndlessly ready (inner _ _ inBody placed fuel) atBranch inBody
    (Nat.le_refl fuel) store
  simp only [Program.size, ← Nat.add_assoc]
  exact loop.andThen (later _ _ afterBody atAfter fuel)

theorem whileLoop (ready : call.Ready) (tested : call.Runs test) (inner : call.Runs body)
    (later : call.Runs after) : call.Runs (.whileLoop test body after) := by
  intro offset rest inBody placed fuel store
  simp only [Program.layout, List.append_assoc] at placed
  have atExit := drop_add_of_drop (Program.length_layout test _) placed
  have exitBody := add_size_le (Program.length_layout test _) placed inBody
  have atInner := drop_add_of_drop (Program.length_branchUnless _) atExit
  have innerBody := add_size_le (Program.length_branchUnless _) atExit exitBody
  have atBranch := drop_add_of_drop (Program.length_layout body _) atInner
  have branchBody := add_size_le (Program.length_layout body _) atInner innerBody
  have atAfter := drop_add_of_drop (Program.length_branch _) atBranch
  have afterBody := add_size_le (Program.length_branch _) atBranch branchBody
  have loop := follows_repeatWhile ready (tested _ _ inBody placed fuel) atExit
    (inner _ _ innerBody atInner fuel) atBranch inBody afterBody (Nat.le_refl fuel) store
  simp only [Program.size, ← Nat.add_assoc]
  exact loop.andThen (later _ _ afterBody atAfter fuel)

end Runs

/-- Every structured program is followed. -/
theorem runs (ready : call.Ready) (program : Program)
    (leaves : ∀ token ∈ program.leaves, call.caller.dictionary.Leaf token) : call.Runs program := by
  induction program with
  | done => exact fun offset _ _ _ fuel store => .refl call offset fuel store
  | leaf token after ih =>
    obtain ⟨first, later⟩ := List.forall_mem_cons.mp leaves
    exact .leaf ready first (ih later)
  | ifThen yes after ihYes ih =>
    obtain ⟨inYes, later⟩ := List.forall_mem_append.mp leaves
    exact .ifThen ready (ihYes inYes) (ih later)
  | ifElse yes no after ihYes ihNo ih =>
    obtain ⟨inBoth, later⟩ := List.forall_mem_append.mp leaves
    obtain ⟨inYes, inNo⟩ := List.forall_mem_append.mp inBoth
    exact .ifElse ready (ihYes inYes) (ihNo inNo) (ih later)
  | untilLoop body after ihBody ih =>
    obtain ⟨inBody, later⟩ := List.forall_mem_append.mp leaves
    exact .untilLoop ready (ihBody inBody) (ih later)
  | endless body after ihBody ih =>
    obtain ⟨inBody, later⟩ := List.forall_mem_append.mp leaves
    exact .endless ready (ihBody inBody) (ih later)
  | whileLoop test body after ihTest ihBody ih =>
    obtain ⟨inBoth, later⟩ := List.forall_mem_append.mp leaves
    obtain ⟨inTest, inBody⟩ := List.forall_mem_append.mp inBoth
    exact .whileLoop ready (ihTest inTest) (ihBody inBody) (ih later)

/-- The body of the word is left, and the caller goes on behind the name. -/
theorem leave_inside (ready : call.Ready) (index : Nat) (store : Store) :
    (call.inside index store).leave = call.back store := by
  have room : call.caller.room - 1 + 1 = call.caller.room :=
    Nat.sub_add_cancel (Nat.pos_of_ne_zero ready.room)
  have left : (call.inside index store).leave =
      { call.back store with room := call.caller.room - 1 + 1 } := rfl
  rw [left, room]
  rfl

theorem reaches_back (ready : call.Ready) (ended : call.body.length ≤ index) (store : Store) :
    Reaches 0 (call.inside index store) (call.back store) := by
  have next : (call.inside index store).token? = none := List.getElem?_eq_none ended
  have left : (call.inside index store).exhaust = call.back store := leave_inside ready index store
  refine .single Nat.zero_lt_one ((tick_of_end next).trans ?_)
  rw [left]

/-- A word that is followed to its end comes back with the effect of the program. -/
theorem exists_drain (ready : call.Ready) {effect : Effect}
    (follows : call.Follows 0 call.body.length fuel store (some effect)) :
    ∃ fuel outcome, (call.inside 0 store).drain Primitive.handler 0 fuel = some outcome ∧
      outcome.effect = effect ∧ outcome.machine.cursor = call.caller.cursor + 1 ∧
      outcome.machine.input = call.caller.input := by
  cases effect with
  | ok _ after =>
    have ended := Reaches.trans follows (reaches_back ready (Nat.le_refl _) after)
    have low : (call.back after).depth ≤ 0 := Nat.le_refl 0
    obtain ⟨fuel, drained⟩ := ended.exists_drain (drain_of_low low 0)
    exact ⟨fuel, _, drained, rfl, rfl, rfl⟩
  | error kind after =>
    obtain ⟨place, before, fault, last, reaches, failed, rfl⟩ := follows
    obtain ⟨fuel, drained⟩ := reaches.exists_drain (drain_of_fault Nat.zero_lt_one failed 0)
    have unwound : (call.inside last after).unwind 0 = call.back after := leave_inside ready last after
    rw [unwound] at drained
    exact ⟨fuel, _, drained, rfl, rfl, rfl⟩

theorem tick_call {m : StandardMachine} {name : String} {body : List String} (calm : m.frames = [])
    (mode : m.mode = .execute) (room : m.room ≠ 0) (next : m.token? = some name)
    (found : m.dictionary.find? name = some (.compiled false body)) :
    m.quiet.tick Primitive.handler =
      some (.ok () (Call.inside ⟨m, name, body⟩ 0 ⟨m.stack, m.output⟩)) := by
  have asked : (m.quiet.moveTo (m.cursor + 1)).request name = .call name body := by
    simp only [request, moveTo, quiet_eq, mode, found]
    rfl
  have room' : (m.quiet.moveTo (m.cursor + 1)).room ≠ 0 := room
  refine (tick_of_request (m := m.quiet) rfl next asked).trans ?_
  change some ((m.quiet.moveTo (m.cursor + 1)).call name body) = _
  rw [Machine.call, if_neg room', enter, moveTo, quiet_eq, calm, mode]
  rfl

end Call

/-- A machine that has come to the name of a word that was compiled from a structured program. -/
structure Poised (m : StandardMachine) (name : String) (program : Program) : Prop where
  calm : m.frames = []
  mode : m.mode = .execute
  room : m.room ≠ 0
  next : m.token? = some name
  found : m.dictionary.find? name = some (.compiled false (program.layout 0))
  natives : ∀ primitive, m.dictionary.Knows primitive
  leaves : ∀ token ∈ program.leaves, m.dictionary.Leaf token
  small : program.size < 2 ^ 63

namespace Poised

variable {m : StandardMachine} {name : String} {program : Program} {fuel : Nat}

theorem ready (poised : m.Poised name program) : Call.Ready ⟨m, name, program.layout 0⟩ :=
  ⟨poised.natives, poised.room, (Program.length_layout program 0).symm ▸ poised.small⟩

theorem follows (poised : m.Poised name program) (fuel : Nat) (store : Store) :
    Call.Follows ⟨m, name, program.layout 0⟩ 0 (program.layout 0).length fuel store
      (program.eval fuel store) := by
  have run := Call.runs poised.ready program poised.leaves 0 [] (Nat.zero_le _)
    (List.append_nil _).symm fuel store
  rwa [Nat.zero_add, ← Program.length_layout program 0] at run

theorem step_eq (poised : m.Poised name program) (fuel : Nat) :
    (m.step Primitive.handler fuel).map (Outcome.over quiet) =
      (Call.inside ⟨m, name, program.layout 0⟩ 0 ⟨m.stack, m.output⟩).drain Primitive.handler 0
        fuel := by
  have depth : m.quiet.depth = 0 := congrArg List.length poised.calm
  have ticked := Call.tick_call poised.calm poised.mode poised.room poised.next poised.found
  rw [← quiet_step, step_of_tick ticked, depth]

/-- Where the program ends, so does the word, and with the same effect. -/
theorem exists_step (poised : m.Poised name program) {effect : Effect}
    (evaluated : program.eval fuel ⟨m.stack, m.output⟩ = some effect) :
    ∃ fuel outcome, m.step Primitive.handler fuel = some outcome ∧ outcome.effect = effect ∧
      outcome.machine.cursor = m.cursor + 1 ∧ outcome.machine.input = m.input := by
  have follows := poised.follows fuel ⟨m.stack, m.output⟩
  rw [evaluated] at follows
  obtain ⟨fuel, silent, drained, same, cursor, input⟩ := Call.exists_drain poised.ready follows
  obtain ⟨outcome, stepped, rfl⟩ := Option.map_eq_some_iff.mp ((poised.step_eq fuel).trans drained)
  refine ⟨fuel, outcome, stepped, ?_⟩
  cases outcome with
  | ok _ last => exact ⟨same, cursor, input⟩
  | error fault last => exact ⟨same, cursor, input⟩

theorem step_eq_none (poised : m.Poised name program)
    (evaluated : program.eval fuel ⟨m.stack, m.output⟩ = none) :
    m.step Primitive.handler fuel = none := by
  have follows := poised.follows fuel ⟨m.stack, m.output⟩
  rw [evaluated] at follows
  exact Option.map_eq_none_iff.mp ((poised.step_eq fuel).trans follows)

/-- Where the word ends, so does the program, and the caller goes on behind the name. -/
theorem eval_of_step (poised : m.Poised name program) {outcome : Outcome Primitive Unit}
    (stepped : m.step Primitive.handler fuel = some outcome) :
    program.eval fuel ⟨m.stack, m.output⟩ = some outcome.effect ∧
      outcome.machine.cursor = m.cursor + 1 ∧ outcome.machine.input = m.input := by
  cases evaluated : program.eval fuel ⟨m.stack, m.output⟩ with
  | none => exact absurd (stepped.symm.trans (poised.step_eq_none evaluated)) nofun
  | some effect =>
    obtain ⟨fuel', outcome', stepped', rfl, place⟩ := poised.exists_step evaluated
    rw [step_unique stepped stepped']
    exact ⟨rfl, place⟩

end Poised
end Machine

theorem Text.two_mul_length_runs (run chars : List Char) :
    2 * (runs run chars).length ≤ chars.length + 1 + (closeRun run).length := by
  induction chars generalizing run with
  | nil => cases run <;> simp
  | cons c chars ih =>
    rw [runs_cons, List.length_cons]
    split
    · have later := ih []
      rw [closeRun_nil, List.length_nil] at later
      rw [List.length_append]
      cases run <;> simp at later ⊢ <;> omega
    · have later := ih (c :: run)
      rw [closeRun_cons, List.length_singleton] at later
      omega

theorem Text.two_mul_length_tokens (source : String) :
    2 * (tokens source).length ≤ source.length + 1 := by
  have count := two_mul_length_runs [] source.toList
  rwa [closeRun_nil, List.length_nil, String.length_toList] at count

theorem Program.size_le (program : Program) : program.size ≤ 2 * program.tokens.length := by
  induction program with
  | done => exact Nat.le_refl 0
  | _ =>
    simp only [size, tokens, List.length_cons, List.length_append]
    omega

namespace Dictionary

variable {dictionary base : Dictionary Primitive} {name token : String}

/-- No word of the base has another meaning. -/
def Extends (dictionary base : Dictionary Primitive) : Prop :=
  ∀ name word, base.find? name = some word → dictionary.find? name = some word

theorem equipped_bootstrapped : bootstrapped.Equipped := by decide +kernel

theorem knows_bootstrapped (primitive : Primitive) : bootstrapped.Knows primitive := by
  have own : ∀ primitive ∈ Primitive.all, primitive.entry.1 ∉ bootstrapped.user.names := by
    decide +kernel
  exact knows_of_not_mem rfl (own primitive primitive.mem_all)

theorem Extends.equipped (extension : dictionary.Extends base) (equipped : base.Equipped) :
    dictionary.Equipped :=
  ⟨fun primitive mem => extension _ _ (equipped.building primitive mem),
    fun entry mem => extension _ _ (equipped.control entry mem)⟩

theorem Leaf.copies (known : ∀ primitive, dictionary.Knows primitive)
    (leaf : dictionary.Leaf token) : token ≠ Action.immediateMark ∧ dictionary.Copies token := by
  rcases leaf with ⟨primitive, isLocal, rfl⟩ | ⟨unknown, plain⟩
  · have found : dictionary.find? primitive.entry.1 = some (primitive.named id).2 := known primitive
    rw [Copies, found]
    revert isLocal
    cases primitive <;> decide
  · rw [Copies, unknown]
    exact ⟨plain, rfl⟩

/-- A program whose name is new fits a dictionary in which the control structures are defined. -/
theorem fits_word (equipped : dictionary.Equipped)
    (known : ∀ primitive, dictionary.Knows primitive) (fresh : dictionary.find? name = none)
    {program : Program} (leaves : ∀ token ∈ program.leaves, dictionary.Leaf token)
    (small : program.size < 2 ^ 63) : (Passage.word name program).Fits dictionary := by
  refine ⟨equipped, ?_, ?_, fun token mem => (leaves token mem).copies known, small⟩
  · rintro primitive mem rfl
    exact absurd ((equipped.building primitive mem).symm.trans fresh) nofun
  · rintro entry mem rfl
    exact absurd ((equipped.control entry mem).symm.trans fresh) nofun

end Dictionary

namespace Machine

variable {m : StandardMachine} {name source : String} {program : Program}

theorem interpret_word (calm : m.frames = []) (closed : m.openWord = none) (room : m.room ≠ 0)
    (fits : (Passage.word name program).Fits m.dictionary)
    (read : Text.tokens source = ":" :: name :: (program.tokens ++ [";"])) :
    ∃ fuel after, m.interpret Primitive.handler fuel source = some (.ok () after) ∧
      after.dictionary = m.dictionary.define name (.compiled false (program.layout 0)) ∧
      after.stack = m.stack ∧ after.output = m.output := by
  have read' : Text.tokens source = [Passage.word name program].flatMap Passage.tokens := by
    rw [List.flatMap_singleton, read]
    rfl
  have allFit : Passage.AllFit m.dictionary [Passage.word name program] := ⟨fits, trivial⟩
  obtain ⟨fuel, after, ran, same⟩ := interpret_passages calm closed room allFit read'
  have dictionary := congrArg Machine.dictionary same
  have stack := congrArg Machine.stack same
  have output := congrArg Machine.output same
  exact ⟨fuel, after, ran, dictionary, stack, output⟩

theorem size_lt (read : Text.tokens source = ":" :: name :: (program.tokens ++ [";"]))
    (short : source.length < 2 ^ 63) : program.size < 2 ^ 63 := by
  have count := Text.two_mul_length_tokens source
  have size := program.size_le
  rw [read, List.length_cons, List.length_cons, List.length_append, List.length_singleton] at count
  omega

theorem poised_of_define {caller : StandardMachine}
    (defined : caller.dictionary =
      m.dictionary.define name (.compiled false (program.layout 0)))
    (known : ∀ primitive, m.dictionary.Knows primitive) (fresh : m.dictionary.find? name = none)
    (unused : name ∉ program.leaves) (leaves : ∀ token ∈ program.leaves, m.dictionary.Leaf token)
    (small : program.size < 2 ^ 63) (calm : caller.frames = []) (mode : caller.mode = .execute)
    (room : caller.room ≠ 0) (next : caller.token? = some name) : caller.Poised name program where
  calm := calm
  mode := mode
  room := room
  next := next
  small := small
  found := by rw [defined, Dictionary.find?_define_self]
  natives primitive := by
    have other : primitive.entry.1 ≠ name := by
      rintro rfl
      exact absurd ((known primitive).symm.trans fresh) nofun
    rw [defined]
    exact (known primitive).define other _
  leaves token mem := by
    have other : token ≠ name := fun same => unused (same ▸ mem)
    rw [defined]
    rcases leaves token mem with isLocal | ⟨unknown, plain⟩
    · exact .inl isLocal
    · exact .inr ⟨(Dictionary.find?_define_of_ne other _).trans unknown, plain⟩

/-- The control structures keep the meaning of programs. When the bootstrap library has been run, and
none of its words and none of the native words has another meaning, a structured program can be defined
as a word under a new name, which leaves stack and output as they are. From then on that word ends
exactly where the program does, with the same effect on stack and output and with the same kind of
failure, and the caller goes on behind the name. A text in memory has fewer than `2 ^ 63` characters. -/
theorem defined_word_iff_eval {host : Host Primitive} (standard : host.natives = Primitive.lexicon) :
    ∃ fuel ready, (start host).interpret Primitive.handler fuel prelude = some (.ok () ready) ∧
      ready.dictionary = bootstrapped ∧
      ∀ m : StandardMachine, m.dictionary.Extends ready.dictionary → m.frames = [] →
        m.openWord = none → m.room ≠ 0 →
      ∀ (program : Program) (name source : String),
        (∀ token ∈ program.leaves, m.dictionary.Leaf token) → name ∉ program.tokens →
        m.dictionary.find? name = none →
        Text.tokens source = ":" :: name :: (program.tokens ++ [";"]) → source.length < 2 ^ 63 →
      ∃ fuel after, m.interpret Primitive.handler fuel source = some (.ok () after) ∧
        after.stack = m.stack ∧ after.output = m.output ∧
      ∀ caller : StandardMachine, caller.dictionary = after.dictionary → caller.frames = [] →
        caller.mode = .execute → caller.room ≠ 0 → caller.token? = some name →
        (∀ effect, (∃ fuel, program.eval fuel ⟨caller.stack, caller.output⟩ = some effect) ↔
          ∃ fuel outcome, caller.step Primitive.handler fuel = some outcome ∧
            outcome.effect = effect) ∧
        ∀ fuel outcome, caller.step Primitive.handler fuel = some outcome →
          outcome.machine.cursor = caller.cursor + 1 ∧ outcome.machine.input = caller.input := by
  obtain ⟨fuel, ready, ran, same⟩ := interpret_prelude standard
  have words : ready.dictionary = bootstrapped := congrArg Machine.dictionary same
  refine ⟨fuel, ready, ran, words, ?_⟩
  intro m extension calm closed room program name source leaves unused fresh read short
  rw [words] at extension
  have known : ∀ primitive, m.dictionary.Knows primitive :=
    fun primitive => extension _ _ (Dictionary.knows_bootstrapped primitive)
  have small := size_lt read short
  have fits := Dictionary.fits_word (extension.equipped Dictionary.equipped_bootstrapped) known fresh
    leaves small
  obtain ⟨fuel, after, defined, dictionary, stack, output⟩ :=
    interpret_word calm closed room fits read
  refine ⟨fuel, after, defined, stack, output, ?_⟩
  intro caller shared calm mode room next
  have poised : caller.Poised name program :=
    poised_of_define (shared.trans dictionary) known fresh
      (fun mem => unused (program.leaves_subset mem)) leaves small calm mode room next
  refine ⟨fun effect => ⟨?_, ?_⟩, fun _ _ stepped => (poised.eval_of_step stepped).2⟩
  · rintro ⟨fuel, evaluated⟩
    obtain ⟨fuel', outcome, stepped, same, -⟩ := poised.exists_step evaluated
    exact ⟨fuel', outcome, stepped, same⟩
  · rintro ⟨fuel, outcome, stepped, rfl⟩
    exact ⟨fuel, (poised.eval_of_step stepped).1⟩

def countdown : Program :=
  .whileLoop
    (.leaf "DUP" (.leaf "0" (.leaf "=" (.ifElse (.leaf "False" .done) (.leaf "True" .done) .done))))
    (.leaf "DUP" (.leaf "." (.leaf "-1" (.leaf "+" .done))))
    (.leaf "DROP" .done)

def countdownText : String :=
  ": COUNTDOWN BEGIN DUP 0 = IF False ELSE True THEN WHILE DUP . -1 + REPEAT DROP ;"

def booted (dictionary : Dictionary Primitive) : StandardMachine :=
  { start { natives := Primitive.lexicon } with dictionary := dictionary }

theorem defined_word_iff_eval_countdown :
    ∃ fuel after,
      (booted bootstrapped).interpret Primitive.handler fuel countdownText = some (.ok () after) ∧
      ∃ fuel outcome,
        { booted after.dictionary with stack := [.int 2], input := ["COUNTDOWN"] }.step
          Primitive.handler fuel = some outcome ∧
        outcome.effect = .ok () ⟨[], "2\n1\n"⟩ ∧ outcome.machine.cursor = 1 := by
  have standard : ({ natives := Primitive.lexicon } : Host Primitive).natives = Primitive.lexicon := rfl
  have room : ∀ dictionary, (booted dictionary).room ≠ 0 := fun _ => Nat.succ_ne_zero 127
  obtain ⟨_, ready, _, words, runs⟩ := defined_word_iff_eval standard
  have extension : (booted bootstrapped).dictionary.Extends ready.dictionary :=
    fun _ _ found => words ▸ found
  obtain ⟨fuel, after, defined, _, _, called⟩ :=
    runs (booted bootstrapped) extension rfl rfl (room bootstrapped) countdown "COUNTDOWN" countdownText
      (by decide +kernel) (by decide +kernel) (by decide +kernel) (by decide +kernel)
      (by decide +kernel)
  obtain ⟨same, place⟩ :=
    called { booted after.dictionary with stack := [.int 2], input := ["COUNTDOWN"] } rfl rfl rfl
      (room after.dictionary) rfl
  obtain ⟨fuel', outcome, stepped, effect⟩ := (same (.ok () ⟨[], "2\n1\n"⟩)).mp ⟨4, rfl⟩
  exact ⟨fuel, after, defined, fuel', outcome, stepped, effect, (place fuel' outcome stepped).1⟩

end Machine
end ResumableForth
