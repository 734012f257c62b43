import ResumableForth.Proofs.Callers
import ResumableForth.Proofs.Effects
import ResumableForth.Proofs.Lockstep

/-! Inputs that stand inside longer ones. A word that is running reads its own body and does not see what
the outermost input is; so the outermost input may as well stand between other tokens. At the outermost
level itself a word may look ahead, for the end of a comment or of a block, or for the mark behind a new
name. It finds the same tokens as long as there are any. Only branches count from the beginning of the
input. -/
namespace ResumableForth

def Frame.placed (front back : List String) (frame : Frame) : Frame :=
  { frame with input := front ++ frame.input ++ back, cursor := front.length + frame.cursor }

def placeLast (front back : List String) : List Frame → List Frame
  | [] => []
  | [frame] => [frame.placed front back]
  | frame :: caller :: callers => frame :: placeLast front back (caller :: callers)

@[simp] theorem length_placeLast (front back : List String) (frames : List Frame) :
    (placeLast front back frames).length = frames.length := by
  fun_induction placeLast <;> simp_all

theorem calls_placeLast (front back : List String) (frames : List Frame) :
    (placeLast front back frames).map (fun frame => CallItem.mk frame.word frame.reached) =
      frames.map fun frame => ⟨frame.word, frame.reached⟩ := by
  fun_induction placeLast <;> simp_all [Frame.placed]

theorem reach_placeLast (front back : List String) (index : Nat) (frames : List Frame) :
    placeLast front back (Machine.reach index frames) =
      Machine.reach index (placeLast front back frames) := by
  cases frames with
  | nil => rfl
  | cons frame callers => cases callers <;> rfl

def outerVeil (front back : List String) : Veil where
  frames := placeLast front back
  room := id
  journal := id
  calls := calls_placeLast front back
  reach := reach_placeLast front back
  record := Veil.record_id

namespace Machine

variable (front back : List String)

/-- The machine with what it reads standing between other tokens. -/
def shifted (m : StandardMachine) : StandardMachine :=
  { m with input := front ++ m.input ++ back, cursor := front.length + m.cursor }

def placed (m : StandardMachine) : StandardMachine :=
  if m.frames.isEmpty then m.shifted front back else (outerVeil front back).cover m

variable {front back} {m : StandardMachine}

theorem placed_of_idle (idle : m.frames = []) : m.placed front back = m.shifted front back := by
  rw [placed, idle]
  rfl

theorem placed_of_running (running : m.frames ≠ []) :
    m.placed front back = (outerVeil front back).cover m := by
  rw [placed, if_neg (by simpa using running)]

theorem frames_placed_of_idle (idle : m.frames = []) : (m.placed front back).frames = [] := by
  rw [placed_of_idle idle]
  exact idle

theorem leave_placed (m : StandardMachine) : (m.placed front back).leave = m.leave.placed front back := by
  cases frames : m.frames with
  | nil => rw [leave_of_idle frames, leave_of_idle (frames_placed_of_idle frames)]
  | cons frame callers =>
    rw [placed_of_running (by simp [frames])]
    cases callers with
    | nil => simp [leave, frames, placed, shifted, Veil.cover, outerVeil, placeLast, Frame.placed, record]
    | cons caller callers =>
      simp [leave, frames, placed, Veil.cover, outerVeil, placeLast, record]

variable (front back) in
theorem harmless_placed : Harmless (placed front back) where
  depth m := by
    rw [placed]
    split
    · rfl
    · simp [depth, Veil.cover, outerVeil]
  mode m := by
    rw [placed]
    split <;> rfl
  leave := leave_placed
  halt m := by
    rw [placed, placed]
    split <;> rfl

theorem record_placed (event : Event) (m : StandardMachine) :
    (m.placed front back).record (fun _ => event) = (m.record fun _ => event).placed front back := by
  have frames : (m.record fun _ => event).frames = m.frames := rfl
  rw [placed, placed, frames]
  split <;> rfl

theorem enter_placed (name : String) (tokens : List String) (m : StandardMachine) :
    (m.placed front back).enter name tokens = (m.enter name tokens).placed front back := by
  cases frames : m.frames with
  | nil =>
    simp [enter, placed, shifted, frames, Veil.cover, outerVeil, placeLast, Frame.placed, record, depth]
  | cons frame callers =>
    simp [enter, placed, frames, Veil.cover, outerVeil, placeLast, record, depth]

theorem calls_placed (m : StandardMachine) : (m.placed front back).calls = m.calls := by
  rw [placed]
  split
  · rfl
  · exact (outerVeil front back).calls_cover m

theorem call_placed (name : String) (tokens : List String) (m : StandardMachine) :
    (m.placed front back).call name tokens = Outcome.over (placed front back) (m.call name tokens) := by
  have room : (m.placed front back).room = m.room := by
    rw [placed]
    split <;> rfl
  have bound : (m.placed front back).depthBound = m.depthBound := by
    rw [depthBound, depthBound, (harmless_placed front back).depth, room]
  have noted : ((m.placed front back).record fun m => .depthReached name m.depthBound) =
      (m.record fun m => .depthReached name m.depthBound).placed front back := by
    show ((m.placed front back).record fun _ => .depthReached name (m.placed front back).depthBound) = _
    rw [bound]
    exact record_placed _ m
  rw [call, call, room, bound, noted]
  split
  · rw [Action.fail, calls_placed]
    rfl
  · exact congrArg (EStateM.Result.ok ()) (enter_placed name tokens m)

theorem read_placed (token : String) (m : StandardMachine) :
    (m.placed front back).read token = (m.read token).placed front back := by
  cases frames : m.frames with
  | nil => simp [read, placed, shifted, frames, moveTo, reach, record, depth, Nat.add_assoc]
  | cons frame callers =>
    cases callers <;> simp [read, placed, frames, moveTo, reach, record, depth, Veil.cover, outerVeil,
      placeLast, Frame.placed]

theorem request_placed (token : String) (m : StandardMachine) :
    (m.placed front back).request token = m.request token := by
  rw [placed]
  split <;> rfl

theorem tick_placed (running : m.frames ≠ []) :
    Carried (placed front back) (fun _ => True) (m.tick Primitive.handler)
      ((m.placed front back).tick Primitive.handler) := by
  have reading : ∀ token, (m.read token).frames ≠ [] :=
    fun token idle => running ((SameCallers.read token m).idle_iff.mp idle)
  refine (harmless_placed front back).tick ?_ (fun token => read_placed token m)
    (fun token => request_placed token _) ?_ ?_
  · rw [placed_of_running running]
    rfl
  · intro token action next asked _
    have plain := plain_of_request Value.closed_true asked
    have acted : (Outcome.machine (action (m.read token))).frames ≠ [] :=
      fun idle => reading token ((sameCallers_of_act asked).idle_iff.mp idle)
    rw [placed_of_running (reading token), plain.over_cover]
    exact congrArg some (Outcome.over_congr (placed_of_running acted).symm)
  · intro token name tokens _
    exact congrArg some (call_placed name tokens _)

variable (front back) in
/-- One result goes alongside another when both succeed, with the input of the second between other
tokens. Failures go alongside each other when they are of one kind, with the same words running; when
more tokens follow, they are not compared. -/
def Alongside {α : Type} : Option (Outcome Primitive α) → Option (Outcome Primitive α) → Prop
  | none, second => second = none
  | some (.ok x m), second => second = some (.ok x (m.placed front back))
  | some (.error fault m), second => back = [] → ∃ fault' : Fault, fault'.kind = fault.kind ∧
      fault'.calls = fault.calls ∧ second = some (.error fault' (m.placed front back))

namespace Alongside

variable {α β : Type}

theorem of_over {outcome : Outcome Primitive α} :
    Alongside front back (some outcome) (some (Outcome.over (placed front back) outcome)) := by
  cases outcome with
  | ok x m => rfl
  | error fault m => exact fun _ => ⟨fault, rfl, rfl, rfl⟩

theorem of_carried {first second : Option (Outcome Primitive Unit)}
    (carried : Carried (placed front back) (fun _ => True) first second) :
    Alongside front back first second := by
  rw [carried (followed_true first)]
  cases first with
  | none => rfl
  | some outcome => exact of_over

theorem fail (cause cause' : Cause) (same : cause'.kind = cause.kind) (m : StandardMachine) :
    Alongside front back (some (Action.fail cause m : Outcome Primitive α))
      (some (Action.fail cause' (m.placed front back))) :=
  fun _ => ⟨⟨cause', (m.placed front back).calls⟩, same, calls_placed m, rfl⟩

theorem bind {first : Action Primitive α} {next : α → Action Primitive β}
    (head : Alongside front back (some (first m)) (some (first (m.placed front back))))
    (tail : ∀ x between, first m = .ok x between →
      Alongside front back (some (next x between)) (some (next x (between.placed front back)))) :
    Alongside front back (some ((first >>= next) m)) (some ((first >>= next) (m.placed front back))) := by
  cases acted : first m with
  | ok x between =>
    rw [acted] at head
    rw [Action.bind_of_ok acted, Action.bind_of_ok (Option.some.inj head)]
    exact tail x between acted
  | error fault between =>
    rw [acted] at head
    rw [Action.bind_of_error acted]
    intro last
    obtain ⟨fault', kind, calls, failed⟩ := head last
    exact ⟨fault', kind, calls, congrArg some (Action.bind_of_error (Option.some.inj failed))⟩

end Alongside

theorem exec_shifted {α : Type} (operation : Op α) (deaf : Op.Class.deaf α operation)
    (m : StandardMachine) :
    operation.exec (m.shifted front back) = Outcome.over (shifted front back) (operation.exec m) := by
  cases operation with
  | look | nextToken | jump => exact deaf.elim
  | pop =>
    simp only [Op.exec, Action.pop]
    cases stack : m.stack <;> simp [shifted, stack, Outcome.over, Action.fail, calls]
  | pick index =>
    simp only [Op.exec, Action.pick]
    cases found : m.stack[index]? <;> simp [shifted, found, Outcome.over, Action.fail, calls]
  | beginDefinition name immediate =>
    simp only [Op.exec, Action.beginDefinition]
    cases opened : m.openWord <;> simp [shifted, opened, Outcome.over, Action.fail, calls, record]
  | endDefinition =>
    simp only [Op.exec, Action.endDefinition]
    cases opened : m.openWord with
    | none => simp [shifted, opened, Outcome.over, Action.fail, calls]
    | some name =>
      cases body : m.dictionary.body? name <;> simp [shifted, opened, body, Outcome.over, record]
  | here =>
    simp only [Op.exec, Action.here]
    cases opened : m.openWord with
    | none => simp [shifted, opened, Outcome.over, Action.fail, calls]
    | some name =>
      cases body : m.dictionary.body? name <;>
        simp [shifted, opened, body, Outcome.over, Action.fail, calls]
  | edit change =>
    simp only [Op.exec, Action.editDefinition]
    cases opened : m.openWord with
    | none => simp [shifted, opened, Outcome.over, Action.fail, calls]
    | some name =>
      cases edited : m.dictionary.editBody? name change <;>
        simp [shifted, opened, edited, Outcome.over, Action.fail, calls]
  | push | write | values | setMode | notePatch | draw => rfl

theorem idle_of_composed {α : Type} {allowed : Op.Class} {result : α → Prop} {action : Action Primitive α}
    (composed : Action.Composed allowed (fun _ => True) result action) (idle : m.frames = []) :
    (Outcome.machine (action m)).frames = [] :=
  (sameCallers_of_composed composed m).idle_iff.mpr idle

/-- An action that is put together from operations that do not read goes alongside; only its fault may tell
what the input was. -/
theorem alongside_of_deaf {α : Type} {result : α → Prop} {action : Action Primitive α}
    (composed : Action.Composed .deaf (fun _ => True) result action) (idle : m.frames = []) :
    Alongside front back (some (action m)) (some (action (m.placed front back))) := by
  induction composed generalizing m with
  | op operation deaf pre post =>
    have idle' := idle_of_composed (.op operation deaf pre post) idle
    have same : operation.exec (m.placed front back) =
        Outcome.over (placed front back) (operation.exec m) := by
      rw [placed_of_idle idle, exec_shifted operation deaf]
      exact Outcome.over_congr (placed_of_idle idle').symm
    rw [same]
    exact .of_over
  | pure h => rfl
  | failWith cause same => exact .fail _ _ (same _ _) m
  | @bind _ _ _ _ first next head tail headAlong tailAlong =>
    refine .bind (headAlong idle) fun x between acted => ?_
    have kept := idle_of_composed head idle
    rw [acted] at kept
    exact tailAlong x (head.result_of_ok acted) kept

theorem drop_placed (idle : m.frames = []) (inside : m.cursor ≤ m.input.length) :
    (m.placed front back).input.drop (m.placed front back).cursor = m.input.drop m.cursor ++ back := by
  rw [placed_of_idle idle]
  show (front ++ m.input ++ back).drop (front.length + m.cursor) = _
  rw [List.append_assoc, ← List.drop_drop, List.drop_left, List.drop_append_of_le_length inside]

theorem token?_placed (idle : m.frames = []) (inside : m.cursor ≤ m.input.length) :
    (m.placed front back).token? = m.token?.or back.head? := by
  rw [token?, ← List.head?_drop, drop_placed idle inside, List.head?_append, List.head?_drop, token?]

theorem moveTo_placed (idle : m.frames = []) (index : Nat) :
    (m.placed front back).moveTo (front.length + index) = (m.moveTo index).placed front back := by
  have idle' : (m.moveTo index).frames = [] := by simp [moveTo, idle, reach]
  rw [placed_of_idle idle, placed_of_idle idle']
  simp [shifted, moveTo, idle, reach]

theorem cursor_placed (idle : m.frames = []) : (m.placed front back).cursor = front.length + m.cursor := by
  rw [placed_of_idle idle]
  rfl

theorem alongside_nextToken (idle : m.frames = []) (inside : m.cursor ≤ m.input.length)
    {token : String} (next : m.token? = some token) :
    Alongside front back (some (Action.nextToken m)) (some (Action.nextToken (m.placed front back))) := by
  have next' : (m.placed front back).token? = some token := by
    rw [token?_placed idle inside, next]
    rfl
  rw [Action.nextToken_of_some next, Action.nextToken_of_some next', cursor_placed idle, Nat.add_assoc,
    moveTo_placed idle]
  rfl

/-- A block ends where it ended, if it did. -/
theorem alongside_readUntil (idle : m.frames = []) (inside : m.cursor ≤ m.input.length) (closer : String)
    (missing : Cause) :
    Alongside front back (some (Action.readUntil closer missing m))
      (some (Action.readUntil closer missing (m.placed front back))) := by
  have later : (m.placed front back).input.drop (m.placed front back).cursor =
      m.input.drop m.cursor ++ back := drop_placed idle inside
  rcases Action.readUntil_cases closer missing m with ⟨block, rest, next, plain, read⟩ | ⟨absent, failed⟩
  · rw [next, List.append_assoc, List.cons_append] at later
    have stop : front.length + m.cursor + block.length + 1 =
        front.length + (m.cursor + block.length + 1) := by omega
    rw [read, Action.readUntil_eq later plain, cursor_placed idle, stop, moveTo_placed idle]
    rfl
  · rw [failed]
    intro last
    rw [last, List.append_nil] at later
    subst last
    rw [Action.readUntil_of_not_mem (later ▸ absent)]
    exact Alongside.fail missing missing rfl m rfl

theorem alongside_look {α : Type} (front back : List String) (next : View → Action Primitive α)
    (idle : m.frames = [])
    (same : next (m.shifted front back).view = next m.view)
    (plain : Action.Plain .deaf (fun _ => True) (next m.view)) :
    Alongside front back (some ((Op.look.exec >>= next) m))
      (some ((Op.look.exec >>= next) (m.placed front back))) := by
  show Alongside front back (some (next m.view m))
    (some (next (m.placed front back).view (m.placed front back)))
  have same' : next (m.placed front back).view = next m.view := by
    rw [placed_of_idle idle]
    exact same
  rw [same']
  exact alongside_of_deaf plain idle

/-- A definition is opened under the same name, and marked in the same way, unless its name was the last
token and a mark follows now. -/
theorem alongside_beginWord (idle : m.frames = []) (inside : m.cursor ≤ m.input.length)
    (unmarked : m.cursor + 1 = m.input.length → back.head? ≠ some Action.immediateMark) :
    Alongside front back (some (Action.beginWord m)) (some (Action.beginWord (m.placed front back))) := by
  cases named : m.token? with
  | none =>
    have missing : Action.beginWord m = Action.fail .nameMissing m := by
      rw [Action.beginWord, Action.bind_of_ok (Action.nextToken_of_none named)]
    rw [missing]
    intro last
    have named' : (m.placed front back).token? = none := by
      rw [token?_placed idle inside, named, last]
      rfl
    rw [Action.beginWord, Action.bind_of_ok (Action.nextToken_of_none named')]
    exact Alongside.fail .nameMissing .nameMissing rfl m last
  | some name =>
    have inside' : m.cursor + 1 ≤ m.input.length := (List.getElem?_eq_some_iff.mp named).1
    refine .bind (alongside_nextToken idle inside named) fun x between read => ?_
    rw [Action.nextToken_of_some named] at read
    cases read
    have idle' : (m.moveTo (m.cursor + 1)).frames = [] := by simp [moveTo, idle, reach]
    have marks : ((m.moveTo (m.cursor + 1)).placed front back).token? = some Action.immediateMark ↔
        (m.moveTo (m.cursor + 1)).token? = some Action.immediateMark := by
      rw [token?_placed idle' inside']
      cases mark : (m.moveTo (m.cursor + 1)).token? with
      | some token => rfl
      | none =>
        have last : m.input.length ≤ m.cursor + 1 := List.getElem?_eq_none_iff.mp mark
        simpa using unmarked (Nat.le_antisymm inside' last)
    show Alongside front back
      (some ((if (m.moveTo (m.cursor + 1)).token? = some Action.immediateMark
        then Action.nextToken >>= fun _ => Action.beginDefinition name true
        else Action.beginDefinition name false) (m.moveTo (m.cursor + 1))))
      (some ((if ((m.moveTo (m.cursor + 1)).placed front back).token? = some Action.immediateMark
        then Action.nextToken >>= fun _ => Action.beginDefinition name true
        else Action.beginDefinition name false) ((m.moveTo (m.cursor + 1)).placed front back)))
    have begins : ∀ {m : StandardMachine} immediate, m.frames = [] →
        Alongside front back (some (Action.beginDefinition name immediate m))
          (some (Action.beginDefinition name immediate (m.placed front back))) :=
      fun immediate idle => alongside_of_deaf
        (.op (.beginDefinition name immediate) trivial trivial fun _ _ => trivial) idle
    simp only [marks]
    split
    · rename_i mark
      refine .bind (alongside_nextToken idle' inside' mark) fun x between read => begins true ?_
      rw [Action.nextToken_of_some mark] at read
      cases read
      simp [moveTo, idle, reach]
    · exact begins false idle'

theorem alongside_copyBlock (idle : m.frames = []) (inside : m.cursor ≤ m.input.length) :
    Alongside front back (some (Action.copyBlock m)) (some (Action.copyBlock (m.placed front back))) := by
  refine .bind (alongside_readUntil idle inside "]" .blockOpen) fun block between read => ?_
  have idle' : between.frames = [] := by
    have kept := idle_of_composed (Action.Composed.readUntil "]" .blockOpen rfl) idle
    rw [read] at kept
    exact kept
  have rest := alongside_look front back (fun view =>
    if view.mode = .compile then Action.compile ("[" :: (block ++ ["]"]))
    else if view.openWord.isNone then Action.fail .blockWithoutDefinition
    else Action.compile block >>= fun _ =>
      if view.outermost then Action.setMode .compile else Pure.pure ()) idle' rfl
  refine rest ?_
  split
  · exact (Action.Composed.edit _).mono And.right
  · split
    · exact .fail _ rfl
    · refine .bind ((Action.Composed.edit _).mono And.right) fun _ _ => ?_
      split
      · exact (Action.Composed.setMode (by decide)).mono And.right
      · exact .pure trivial

theorem alongside_suspend (idle : m.frames = []) :
    Alongside front back (some (Action.suspend m)) (some (Action.suspend (m.placed front back))) := by
  have rest := alongside_look front back (fun view =>
    if view.mode = .compile then Action.setMode .execute else Pure.pure ()) idle rfl
  refine rest ?_
  split
  · exact (Action.Composed.setMode (by decide)).mono And.right
  · exact .pure trivial

/-- Native words other than branches go alongside, at the outermost level. -/
theorem alongside_primitive {word : Primitive} (idle : m.frames = []) (inside : m.cursor ≤ m.input.length)
    (straight : word ≠ .branch ∧ word ≠ .branchUnless)
    (unmarked : word = .colon → m.cursor + 1 = m.input.length →
      back.head? ≠ some Action.immediateMark) :
    Alongside front back (some (word.run m)) (some (word.run (m.placed front back))) := by
  have stable : Value.Stable fun _ => True := Value.closed_true.stable
  cases here : word.isLocal with
  | true =>
    exact alongside_of_deaf ((Action.Composed.ofLocal stable here).mono Op.Class.deaf_of_onStore) idle
  | false =>
    match word, here with
    | .rand, _ => exact alongside_of_deaf ((Action.Composed.random stable).mono fun h => h.2.2) idle
    | .colon, _ => exact alongside_beginWord idle inside (unmarked rfl)
    | .semicolon, _ => exact alongside_of_deaf (Action.Composed.endDefinition.mono And.right) idle
    | .here, _ => exact alongside_of_deaf ((Action.Composed.pushHere stable).mono fun h => h.2.2) idle
    | .store, _ => exact alongside_of_deaf (Action.Composed.storeValue.mono And.right) idle
    | .comma, _ => exact alongside_of_deaf (Action.Composed.compileValue.mono And.right) idle
    | .openBracket, _ => exact alongside_copyBlock idle inside
    | .closeBracket, _ => exact alongside_suspend idle
    | .openParen, _ => exact .bind (alongside_readUntil idle inside ")" .commentOpen) fun _ _ _ => rfl
    | .branch, _ => exact absurd rfl straight.1
    | .branchUnless, _ => exact absurd rfl straight.2

structure Outermost (tokens : List String) (m : StandardMachine) : Prop where
  idle : m.frames = []
  input : m.input = tokens
  inside : m.cursor ≤ tokens.length
  running : m.mode ≠ .halt

namespace Outermost

variable {tokens : List String}

theorem change {m' : StandardMachine} (h : m.Outermost tokens) (change : Change m m') :
    m'.Outermost tokens := by
  have input := change.input.trans h.input
  have running := change.running h.running
  rcases change.cursor with ⟨frames, cursor⟩ | ⟨index, inside, frames, cursor⟩
  · exact ⟨frames.trans h.idle, input, cursor.symm ▸ h.inside, running⟩
  · refine ⟨?_, input, ?_, running⟩
    · rw [frames, h.idle]
      rfl
    · rw [cursor, ← h.input]
      exact inside

theorem read (h : m.Outermost tokens) {token : String} (next : m.token? = some token) :
    (m.read token).Outermost tokens := by
  have inside : m.cursor + 1 ≤ m.input.length := (List.getElem?_eq_some_iff.mp next).1
  exact h.change (.moved (m.cursor + 1) inside ⟨rfl, rfl, rfl, rfl, rfl, rfl, rfl⟩)

theorem load (idle : m.frames = []) (tokens : List String) : (m.load tokens).Outermost tokens where
  idle := idle
  input := rfl
  inside := Nat.zero_le _
  running := by
    show (if m.openWord.isSome then Mode.compile else .execute) ≠ .halt
    split <;> rintro ⟨⟩

theorem step (h : m.Outermost tokens) {token : String} (next : m.token? = some token) {fuel : Nat}
    {outcome : Outcome Primitive Unit} (stepped : m.step Primitive.handler fuel = some outcome) :
    outcome.machine.Outermost tokens := by
  have reading := h.read next
  cases asked : (m.read token).request token with
  | act action =>
    rw [step_of_act next asked] at stepped
    cases stepped
    have plain := plain_of_request Value.closed_true asked
    have kept : Outcome.Meets _ (Outermost tokens) (action (m.read token)) :=
      plain.keeps (fun operation _ _ x kept =>
        operation.meets_of_machine (kept.change (.of_exec operation x))) _ reading
    exact kept.machine
  | call name body =>
    obtain ⟨rfl, word, found, compiled, runs⟩ := call_of_request asked
    have back := undisturbed_of_step next found compiled runs stepped
    exact {
      idle := back.frames.trans reading.idle
      input := back.input.trans reading.input
      inside := back.cursor.symm ▸ reading.inside
      running := back.mode.symm ▸ reading.running }

end Outermost

/-- A step goes alongside when there is something to read or nothing follows, no branch is run, and no mark
comes behind a name that was the last token. -/
theorem step_placed {tokens : List String} (outer : m.Outermost tokens)
    (more : m.token? = none → back = [])
    (straight : m.native? ≠ some .branch ∧ m.native? ≠ some .branchUnless)
    (unmarked : m.native? = some .colon → m.cursor + 2 = tokens.length →
      back.head? ≠ some Action.immediateMark) (fuel : Nat) :
    Alongside front back (m.step Primitive.handler fuel)
      ((m.placed front back).step Primitive.handler fuel) := by
  have inside : m.cursor ≤ m.input.length := outer.input ▸ outer.inside
  have harmless := harmless_placed front back
  have steps : Carried (placed front back) (fun _ => True) (m.tick Primitive.handler)
      ((m.placed front back).tick Primitive.handler) →
      Alongside front back (m.step Primitive.handler fuel)
        ((m.placed front back).step Primitive.handler fuel) := by
    intro first
    refine .of_carried (harmless.step fun last ticks => ?_)
    cases ticks with
    | first => exact first
    | later ticked reaches above =>
      refine tick_placed fun idle => ?_
      rw [(frames_eq_nil_iff last).mp idle] at above
      exact Nat.not_lt_zero _ above
  cases next : m.token? with
  | none =>
    have next' : (m.placed front back).token? = none := by
      rw [token?_placed outer.idle inside, next, more next]
      rfl
    apply steps
    rw [tick_of_end next, tick_of_end next', harmless.exhaust]
    exact fun _ => rfl
  | some token =>
    have next' : (m.placed front back).token? = some token := by
      rw [token?_placed outer.idle inside, next]
      rfl
    have reading := outer.read next
    have request : ((m.placed front back).read token).request token = (m.read token).request token := by
      rw [read_placed, request_placed]
    cases asked : (m.read token).request token with
    | call name body =>
      apply steps
      rw [tick_of_token next, tick_of_token next', request, asked, read_placed]
      exact fun _ => congrArg some (call_placed name body _)
    | act action =>
      rw [asked] at request
      rw [step_of_act next asked, step_of_act next' request, read_placed]
      obtain ⟨primitive, native, rfl⟩ | rfl | rfl | rfl := action_cases next asked
      · rw [native] at straight unmarked
        refine alongside_primitive reading.idle (reading.input ▸ reading.inside) ?_ ?_
        · exact ⟨fun same => straight.1 (congrArg some same), fun same => straight.2 (congrArg some same)⟩
        · intro same last
          refine unmarked (congrArg some same) ?_
          rw [← outer.input]
          exact last
      · exact alongside_of_deaf (Action.Composed.push trivial trivial) reading.idle
      · exact alongside_of_deaf ((Action.Composed.edit _).mono And.right) reading.idle
      · exact .fail _ _ rfl _

end Machine
end ResumableForth
