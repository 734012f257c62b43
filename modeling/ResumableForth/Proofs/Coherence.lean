import ResumableForth.Proofs.Decoding
import ResumableForth.Proofs.Draining
import ResumableForth.Proofs.Effects
import ResumableForth.Proofs.Ledger
import ResumableForth.Proofs.Resumption

/-! What holds of a machine at all times: between the commands that a host gives it, and at every point
inside a step. Cursors are inside what they point into, no more words run than may, the native words are
those of the host, the program's words are compiled ones under distinct names, and an open definition is
one of them. So nothing that the machine looks up by an index is missing, an open definition is never lost,
and every state has a persisted form. The same is said of the books that a machine is put together from:
callers and call items stay in step, and the index leads to the words. -/
namespace ResumableForth

theorem Lexicon.position?_eq_some_iff {ν : Type} {lexicon : Lexicon ν} (distinct : lexicon.names.Nodup)
    (name : String) (i : Nat) : lexicon.position? name = some i ↔ lexicon.names[i]? = some name := by
  have place : ∀ {j}, lexicon.position? name = some j → lexicon.names[j]? = some name := by
    intro j h
    rw [names, List.getElem?_map]
    exact map_fst_getElem?_position h
  constructor
  · exact place
  · intro named
    obtain ⟨j, found⟩ := exists_position_of_mem (List.mem_of_getElem? named)
    have inside : i < lexicon.names.length := (List.getElem?_eq_some_iff.mp named).1
    have same : i = j := (List.getElem?_inj inside distinct).mp (named.trans (place found).symm)
    rw [same]
    exact found

theorem Dictionary.Regular.exists_body? {ν : Type} {dictionary : Dictionary ν}
    (h : dictionary.Regular) {name : String} (known : name ∈ dictionary.user.names) :
    ∃ tokens, dictionary.body? name = some tokens := by
  obtain ⟨i, place⟩ := Lexicon.exists_position_of_mem known
  have found := Lexicon.find?_eq place
  rw [List.getElem?_eq_getElem (Lexicon.position_lt place), Option.map_some] at found
  obtain ⟨immediate, tokens, word⟩ := h.word found
  refine ⟨tokens, ?_⟩
  rw [body?, found, word]
  rfl

theorem Snapshot.regular_of_readWords {ν : Type} {natives user : Lexicon ν} {entries : List WordEntry}
    (read : readWords .empty entries = .ok user) : Dictionary.Regular ⟨natives, user⟩ where
  words := by
    rw [eq_wordsOf_of_readWords read]
    intro entry mem
    obtain ⟨word, -, rfl⟩ := List.mem_map.mp mem
    exact ⟨word.immediate, word.tokens, rfl⟩
  distinct := nodup_names_of_readWords read

def Fault.IsOrdinary (fault : Fault) : Prop := fault.cause.isLoss = false

namespace Machine

/-- What all that can happen to a machine keeps: operations, entering and leaving words, and what a host does
by itself. -/
structure Lasting (state : StandardMachine → Prop) (raised : Fault → Prop) : Prop where
  ordinary : ∀ fault : Fault, fault.IsOrdinary → raised fault
  operation : ∀ {α : Type} (operation : Op α) {m}, state m →
    Outcome.Within state raised (operation.exec m)
  record : ∀ event {m}, state m → state (m.record event)
  enter : ∀ name tokens {m}, m.room ≠ 0 → state m → state (m.enter name tokens)
  leave : ∀ {m}, state m → state m.leave
  switch : ∀ mode {m}, state m → state { m with mode := mode }
  load : ∀ tokens {m}, state m → state (m.load tokens)
  recover : ∀ {m}, state m → state m.recover
  empty : ∀ {m}, state m → state { m with output := "" }

/-- The part of the order in a machine that evaluation keeps by itself. -/
structure Coherent (host : Host Primitive) (m : StandardMachine) : Prop where
  inside : m.cursor ≤ m.input.length
  saved : ∀ frame ∈ m.frames, frame.cursor ≤ frame.input.length
  bound : m.depthBound = max host.depthBound 1
  natives : m.dictionary.natives = host.natives
  dictionary : m.dictionary.Regular
  known : ∀ name, m.openWord = some name → name ∈ m.dictionary.user.names

namespace Coherent

variable {host : Host Primitive} {m m' : StandardMachine}

theorem alike (h : m.Coherent host) (same : Alike m m') : m'.Coherent host where
  inside := by
    rw [same.cursor, same.input]
    exact h.inside
  saved := by
    rw [same.frames]
    exact h.saved
  bound := by
    rw [← h.bound, depthBound, depthBound, depth, depth, same.frames, same.room]
  natives := by
    rw [same.dictionary]
    exact h.natives
  dictionary := by
    rw [same.dictionary]
    exact h.dictionary
  known := by
    rw [same.openWord, same.dictionary]
    exact h.known

theorem record (h : m.Coherent host) (event : Machine Primitive → Event) :
    (m.record event).Coherent host :=
  h.alike ⟨rfl, rfl, rfl, rfl, rfl, rfl, rfl⟩

theorem withMode (h : m.Coherent host) (mode : Mode) :
    ({ m with mode := mode } : StandardMachine).Coherent host :=
  { h with }

theorem moveTo (h : m.Coherent host) {index : Nat} (inside : index ≤ m.input.length) :
    (m.moveTo index).Coherent host where
  inside := inside
  saved := by
    have saved := h.saved
    show ∀ frame ∈ reach index m.frames, frame.cursor ≤ frame.input.length
    cases frames : m.frames with
    | nil => simp [reach]
    | cons frame callers =>
      rw [frames] at saved
      simpa [reach] using saved
  bound := by
    rw [← h.bound]
    simp [depthBound, Machine.moveTo, depth]
  natives := h.natives
  dictionary := h.dictionary
  known := h.known

theorem define (h : m.Coherent host) (name : String) (immediate : Bool) (tokens : List String)
    {openWord : Option String}
    (opened : ∀ other, openWord = some other → other = name ∨ other ∈ m.dictionary.user.names)
    (mode : Mode) :
    ({ m with
      dictionary := m.dictionary.define name (.compiled immediate tokens)
      openWord := openWord
      mode := mode } : StandardMachine).Coherent host :=
  { h with
    dictionary := h.dictionary.define name immediate tokens
    known := fun other open? => Lexicon.mem_names_insert.mpr (opened other open?) }

theorem change (h : m.Coherent host) (change : Change m m') : m'.Coherent host := by
  cases change with
  | nothing same => exact h.alike same
  | moved index inside same => exact (h.moveTo inside).alike same
  | switched mode running same => exact (h.withMode mode).alike same
  | begun name immediate idle same =>
    refine (h.define name immediate [] ?_ .compile).alike same
    rintro other ⟨⟩
    exact .inl rfl
  | ended name opened same =>
    have closed : ({ m with openWord := none, mode := .execute } : StandardMachine).Coherent host :=
      { h with known := by rintro _ ⟨⟩ }
    exact closed.alike same
  | edited name opened change dictionary edited same =>
    obtain ⟨immediate, tokens, rfl⟩ := h.dictionary.edit edited
    exact (h.define name immediate tokens (fun other o => .inr (h.known other o)) m.mode).alike same

theorem enter (h : m.Coherent host) (name : String) (tokens : List String) (room : m.room ≠ 0) :
    (m.enter name tokens).Coherent host where
  inside := Nat.zero_le _
  saved := List.forall_mem_cons.mpr ⟨h.inside, h.saved⟩
  bound := (depthBound_enter name tokens room).trans h.bound
  natives := h.natives
  dictionary := h.dictionary
  known := h.known

theorem leave (h : m.Coherent host) : m.leave.Coherent host := by
  have bound : m.leave.depthBound = max host.depthBound 1 := (depthBound_leave m).trans h.bound
  have saved := h.saved
  cases frames : m.frames with
  | nil =>
    rw [leave_of_idle frames]
    exact h
  | cons frame callers =>
    rw [frames] at saved
    obtain ⟨caller, others⟩ := List.forall_mem_cons.mp saved
    simp only [Machine.leave, frames] at bound ⊢
    exact { h with inside := caller, saved := others, bound := bound }

theorem load (h : m.Coherent host) (tokens : List String) : (m.load tokens).Coherent host :=
  { h with inside := Nat.zero_le _ }

theorem recover (h : m.Coherent host) : m.recover.Coherent host :=
  { h with
    inside := Nat.zero_le _
    saved := by simp [Machine.recover]
    bound := (depthBound_recover m).trans h.bound }

theorem exists_body? (h : m.Coherent host) {name : String} (opened : m.openWord = some name) :
    ∃ tokens, m.dictionary.body? name = some tokens :=
  h.dictionary.exists_body? (h.known name opened)

/-- An operation that fails does not do so for want of the open definition. -/
theorem isOrdinary_of_exec {α : Type} (h : m.Coherent host) (operation : Op α) {fault : Fault}
    (failed : operation.exec m = .error fault m') : fault.IsOrdinary := by
  cases operation with
  | pop =>
    simp only [Op.exec, Action.pop] at failed
    split at failed <;> cases failed
    rfl
  | pick index =>
    simp only [Op.exec, Action.pick] at failed
    split at failed <;> cases failed
    rfl
  | nextToken =>
    simp only [Op.exec, Action.nextToken] at failed
    split at failed <;> cases failed
  | jump index =>
    simp only [Op.exec, Action.jump] at failed
    split at failed <;> cases failed
    rfl
  | beginDefinition name immediate =>
    simp only [Op.exec, Action.beginDefinition] at failed
    split at failed <;> cases failed
    rfl
  | endDefinition =>
    simp only [Op.exec, Action.endDefinition] at failed
    split at failed <;> cases failed
    rfl
  | here =>
    cases opened : m.openWord with
    | none =>
      simp only [Op.exec, Action.here, opened] at failed
      cases failed
      rfl
    | some name =>
      obtain ⟨tokens, body⟩ := h.exists_body? opened
      simp only [Op.exec, Action.here, opened, body] at failed
      cases failed
  | edit change =>
    cases opened : m.openWord with
    | none =>
      simp only [Op.exec, Action.editDefinition, opened] at failed
      cases failed
      rfl
    | some name =>
      obtain ⟨tokens, body⟩ := h.exists_body? opened
      obtain ⟨dictionary, edited⟩ := Dictionary.exists_editBody? body change
      simp only [Op.exec, Action.editDefinition, opened, edited] at failed
      cases failed
  | push | write | values | look | setMode | notePatch | draw => cases failed

/-- Evaluation keeps a machine coherent, and does not fail for want of the open definition. -/
theorem lasting (host : Host Primitive) : Lasting (Coherent host) Fault.IsOrdinary where
  ordinary _ ordinary := ordinary
  operation := by
    intro α operation m h
    refine .intro (h.change (.of_exec operation m)) ?_
    intro fault next failed
    exact h.isOrdinary_of_exec operation failed
  record event _ h := h.record event
  enter name tokens _ room h := h.enter name tokens room
  leave h := h.leave
  switch mode _ h := h.withMode mode
  load tokens _ h := h.load tokens
  recover h := h.recover
  empty h := { h with }

end Coherent

theorem coherent_start (host : Host Primitive) : (start host).Coherent host where
  inside := Nat.le_refl 0
  saved := by simp [start]
  bound := Nat.zero_add _
  natives := rfl
  dictionary := ⟨by simp [start, Dictionary.ofNatives, Lexicon.empty], List.nodup_nil⟩
  known := by simp [start]

/-- The checks of a persisted form let coherent machines through only. -/
theorem coherent_of_deserialize {host : Host Primitive} {source : String} {m : StandardMachine}
    (h : deserialize host source = .ok m) : m.Coherent host := by
  rw [deserialize] at h
  split at h
  · rename_i snapshot _
    obtain ⟨stack, user, -, words, inside, opened, rfl⟩ := Snapshot.exists_of_restore h
    refine { coherent_start host with
      inside := inside
      dictionary := Snapshot.regular_of_readWords words
      known := ?_ }
    intro name current
    rw [show snapshot.openWord = some name from current] at opened
    exact Snapshot.mem_names_of_checkOpen opened
  · cases h

inductive Command
  | load (tokens : List String)
  | loadText (line : String)
  | interpret (source : String)
  | step
  | runToHalt
  | invoke (name : String)
  | recover
  | push (value : Value)
  | pop
  | jump (index : Nat)
  | setMode (mode : Mode)
  | nextToken
  | beginDefinition (name : String) (immediate : Bool)
  | append (token : String)
  | patch (index : Nat) (token : String)
  | endDefinition
  | write (text : String)
  | takeOutput

def attempt {α : Type} (action : Action Primitive α) (m : StandardMachine) :
    Option (Outcome Primitive Unit) :=
  match action m with
  | .ok _ next => some (.ok () next)
  | .error fault next => some (.error fault next)

def Command.run (fuel : Nat) (m : StandardMachine) : Command → Option (Outcome Primitive Unit)
  | .load tokens => some (.ok () (m.load tokens))
  | .loadText line => some (.ok () (m.loadText line))
  | .interpret source => m.interpret Primitive.handler fuel source
  | .step => m.step Primitive.handler fuel
  | .runToHalt => m.runToHalt Primitive.handler fuel
  | .invoke name => m.invoke Primitive.handler fuel name
  | .recover => some (.ok () m.recover)
  | .push value => m.attempt (Action.push value)
  | .pop => m.attempt Action.pop
  | .jump index => m.attempt (Action.jump index)
  | .setMode mode => m.attempt (Action.setMode mode)
  | .nextToken => m.attempt Action.nextToken
  | .beginDefinition name immediate => m.attempt (Action.beginDefinition name immediate)
  | .append token => m.attempt (Action.compile [token])
  | .patch index token => m.attempt (Action.patch index token)
  | .endDefinition => m.attempt Action.endDefinition
  | .write text => m.attempt (Action.write text)
  | .takeOutput => some (.ok () m.takeOutput.2)

namespace Lasting

variable {state : StandardMachine → Prop} {raised : Fault → Prop} {m : StandardMachine}

theorem action (h : Lasting state raised) {α : Type} {result : α → Prop} {action : Action Primitive α}
    (composed : Action.Composed .any (fun _ => True) result action) (before : state m) :
    Outcome.Within state raised (action m) :=
  composed.within (fun operation _ => h.operation operation) h.ordinary m before

theorem read (h : Lasting state raised) {token : String} (next : m.token? = some token) (before : state m) :
    state (m.read token) := by
  have moved := (h.operation .nextToken before).machine
  rw [Op.exec, Action.nextToken_of_some next] at moved
  exact h.record _ moved

theorem call (h : Lasting state raised) (name : String) (tokens : List String) (before : state m) :
    Outcome.Within state raised (m.call name tokens) := by
  rw [Machine.call]
  split
  · exact ⟨h.ordinary _ rfl, h.record (fun m => .depthReached name m.depthBound) before⟩
  · rename_i room
    exact h.enter name tokens room before

theorem exhaust (h : Lasting state raised) (before : state m) : state m.exhaust := by
  rw [Machine.exhaust]
  split
  · exact h.switch .halt before
  · exact h.leave before

theorem steady (h : Lasting state raised) : Steady Primitive.handler state raised where
  tick := by
    intro m outcome before ticked
    obtain rfl | ⟨token, action, next, asked, rfl⟩ | ⟨token, word, tokens, next, -, -, rfl⟩ :=
      tick_cases ticked
    · exact h.exhaust before
    · exact h.action (plain_of_request Value.closed_true asked) (h.read next before)
    · exact h.call token tokens (h.read next before)
  dispatch := by
    intro name m outcome before dispatched
    obtain rfl | ⟨primitive, rfl⟩ | ⟨word, tokens, -, -, rfl⟩ := dispatch_cases dispatched
    · exact ⟨h.ordinary _ rfl, before⟩
    · exact h.action (.primitive Value.closed_true.stable primitive) before
    · exact h.call name tokens before
  leave := h.leave

theorem attempt (h : Lasting state raised) {α : Type} {result : α → Prop} {action : Action Primitive α}
    {outcome : Outcome Primitive Unit} (composed : Action.Composed .any (fun _ => True) result action)
    (before : state m) (attempted : m.attempt action = some outcome) :
    Outcome.Within state raised outcome := by
  have kept := h.action composed before
  rw [Machine.attempt] at attempted
  cases acted : action m with
  | ok x next =>
    simp only [acted] at attempted kept
    cases attempted
    exact kept
  | error fault next =>
    simp only [acted] at attempted kept
    cases attempted
    exact kept

/-- Whatever a host commands, and whatever comes of it. -/
theorem command (h : Lasting state raised) {fuel : Nat} {command : Command}
    {outcome : Outcome Primitive Unit} (before : state m) (ran : command.run fuel m = some outcome) :
    Outcome.Within state raised outcome := by
  cases command with
  | load tokens =>
    cases ran
    exact h.load tokens before
  | loadText line =>
    cases ran
    exact h.load (Text.tokens line) before
  | interpret source => exact h.steady.runToHalt (h.load (Text.tokens source) before) ran
  | step => exact h.steady.step before ran
  | runToHalt => exact h.steady.runToHalt before ran
  | invoke name => exact h.steady.invoke before ran
  | recover =>
    cases ran
    exact h.recover before
  | push value => exact h.attempt (.push trivial trivial) before ran
  | pop => exact h.attempt (.pop trivial) before ran
  | jump index => exact h.attempt ((Action.Composed.jump index).mono fun _ => trivial) before ran
  | setMode mode =>
    cases ran
    exact h.switch mode before
  | nextToken => exact h.attempt (Action.Composed.nextToken.mono fun _ => trivial) before ran
  | beginDefinition name immediate =>
    exact h.attempt (.op (.beginDefinition name immediate) trivial trivial fun _ _ => trivial) before ran
  | append token => exact h.attempt ((Action.Composed.edit _).mono fun _ => trivial) before ran
  | patch index token =>
    exact h.attempt ((Action.Composed.patch index token).mono fun _ => trivial) before ran
  | endDefinition => exact h.attempt (Action.Composed.endDefinition.mono fun _ => trivial) before ran
  | write text => exact h.attempt (.write text trivial) before ran
  | takeOutput =>
    cases ran
    exact h.empty before

end Lasting

/-- The machines that a host can come to by commands, whatever their outcome, from a fresh machine or
from one that is taken up again. -/
inductive Attained (host : Host Primitive) : StandardMachine → Prop
  | start : Attained host (start host)
  | resumed {source : String} {m : StandardMachine} (read : deserialize host source = .ok m) :
    Attained host m
  | commanded {m : StandardMachine} {outcome : Outcome Primitive Unit} (command : Command) (fuel : Nat)
    (before : Attained host m) (ran : command.run fuel m = some outcome) :
    Attained host outcome.machine

/-- An action comes past a machine when the operations that it is put together from fall into a first
part, which leads to the machine, and a rest. -/
def Passes (action : Action Primitive Unit) (m point : StandardMachine) : Prop :=
  ∃ (α : Type) (first : Action Primitive α) (rest : α → Action Primitive Unit),
    Action.Plain .any (fun _ => True) first ∧ (∀ x, Action.Plain .any (fun _ => True) (rest x)) ∧
      action = first >>= rest ∧ point = Outcome.machine (first m)

inductive TickPoint (m : StandardMachine) : StandardMachine → Prop
  | before : TickPoint m m
  | read {token : String} (next : m.token? = some token) : TickPoint m (m.read token)
  | acting {token : String} {action : Action Primitive Unit} {point : StandardMachine}
    (next : m.token? = some token) (asked : (m.read token).request token = .act action)
    (passes : Passes action (m.read token) point) : TickPoint m point
  | after {outcome : Outcome Primitive Unit} (ticked : m.tick Primitive.handler = some outcome) :
    TickPoint m outcome.machine

inductive DrainPoint (base : Nat) (m : StandardMachine) : StandardMachine → Prop
  | running {next point : StandardMachine} (reaches : Reaches base m next) (above : base < next.depth)
    (passes : TickPoint next point) : DrainPoint base m point
  | ending {next failed : StandardMachine} {fault : Fault} {count : Nat}
    (reaches : Reaches base m next) (above : base < next.depth)
    (ticked : next.tick Primitive.handler = some (.error fault failed))
    (few : count ≤ failed.depth - base) : DrainPoint base m (Nat.repeat leave count failed)

inductive StepPoint (m : StandardMachine) : StandardMachine → Prop
  | reading {point : StandardMachine} (passes : TickPoint m point) : StepPoint m point
  | running {next point : StandardMachine} (ticked : m.tick Primitive.handler = some (.ok () next))
    (passes : DrainPoint m.depth next point) : StepPoint m point
  | acting {name : String} {word : Word Primitive} {action : Action Primitive Unit}
    {point : StandardMachine} (found : m.dictionary.find? name = some word)
    (asked : word.request name = .act action) (passes : Passes action m point) : StepPoint m point
  | called {name : String} {next point : StandardMachine}
    (dispatched : m.dispatch Primitive.handler name = some (.ok () next))
    (passes : DrainPoint m.depth next point) : StepPoint m point

/-- What evaluation keeps between tokens, and what is left of it at the points where a token has been read
but not yet acted on. -/
structure Pervasive (between inside : StandardMachine → Prop) (raised : Fault → Prop) : Prop where
  steady : Steady Primitive.handler between raised
  weaken : ∀ {m}, between m → inside m
  read : ∀ {m token}, m.token? = some token → between m → inside (m.read token)
  passes : ∀ {action m point}, Passes action m point → inside m → inside point

namespace Pervasive

variable {between inside : StandardMachine → Prop} {raised : Fault → Prop} {m point : StandardMachine}

theorem tickPoint (h : Pervasive between inside raised) (before : between m)
    (passes : TickPoint m point) : inside point := by
  cases passes with
  | before => exact h.weaken before
  | read next => exact h.read next before
  | acting next asked passes => exact h.passes passes (h.read next before)
  | after ticked => exact h.weaken (h.steady.tick before ticked).machine

theorem reaches {base : Nat} (h : Pervasive between inside raised) (before : between m)
    (reaches : Reaches base m point) : between point := by
  induction reaches with
  | refl m => exact before
  | tick above ticked later ih => exact ih (h.steady.tick before ticked)

theorem drainPoint {base : Nat} (h : Pervasive between inside raised) (before : between m)
    (passes : DrainPoint base m point) : inside point := by
  cases passes with
  | running reaches above passes => exact h.tickPoint (h.reaches before reaches) passes
  | ending reaches above ticked few =>
    have failed := (h.steady.tick (h.reaches before reaches) ticked).2
    exact h.weaken ((h.steady.keeps base).unwinding failed few)

/-- What is kept holds at every point of a step, and of the call of a word by its name. -/
theorem stepPoint (h : Pervasive between inside raised) (before : between m)
    (passes : StepPoint m point) : inside point := by
  cases passes with
  | reading passes => exact h.tickPoint before passes
  | running ticked passes =>
    have next : between _ := h.steady.tick before ticked
    exact h.drainPoint next passes
  | acting found asked passes => exact h.passes passes (h.weaken before)
  | called dispatched passes =>
    have next : between _ := h.steady.dispatch before dispatched
    exact h.drainPoint next passes

end Pervasive

theorem Lasting.pervasive {state : StandardMachine → Prop} {raised : Fault → Prop}
    (h : Lasting state raised) : Pervasive state state raised where
  steady := h.steady
  weaken before := before
  read next before := h.read next before
  passes := by
    rintro action m point ⟨α, first, rest, plain, -, -, rfl⟩ before
    exact (h.action plain before).machine

theorem Coherent.exists_serialize {host : Host Primitive} {m : StandardMachine} (h : m.Coherent host) :
    ∃ form, m.serialize = .ok form := by
  have compiled : ∀ entry ∈ m.dictionary.user.entries, entry.2.tokens?.isSome = true := by
    intro entry mem
    obtain ⟨immediate, tokens, word⟩ := h.dictionary.words entry mem
    rw [word]
    rfl
  refine ⟨m.snapshot.encode, ?_⟩
  rw [serialize, Snapshot.ofMachine, Snapshot.mapM_wordEntry compiled]
  rfl

/-- The machines that there can be on a host, between commands and inside a step. A run is a sequence
of steps, which a host can command one by one. -/
inductive Visited (host : Host Primitive) : StandardMachine → Prop
  | between {m : StandardMachine} (attained : Attained host m) : Visited host m
  | inside {m point : StandardMachine} (attained : Attained host m) (passes : StepPoint m point) :
    Visited host point

/-- What lasts holds of all of them, when it holds at the start and of what is taken up again. -/
theorem Visited.lasting {host : Host Primitive} {state : StandardMachine → Prop} {raised : Fault → Prop}
    (lasting : Lasting state raised) (start : state (start host))
    (resumed : ∀ {source m}, deserialize host source = .ok m → state m) {m : StandardMachine}
    (h : Visited host m) : state m := by
  have between {m : StandardMachine} (attained : Attained host m) : state m := by
    induction attained with
    | start => exact start
    | resumed read => exact resumed read
    | commanded command fuel before ran ih => exact (lasting.command ih ran).machine
  cases h with
  | between attained => exact between attained
  | inside attained passes => exact lasting.pervasive.stepPoint (between attained) passes

theorem Visited.coherent {host : Host Primitive} {m : StandardMachine} (h : Visited host m) :
    m.Coherent host :=
  h.lasting (Coherent.lasting host) (coherent_start host) coherent_of_deserialize

theorem Attained.coherent {host : Host Primitive} {m : StandardMachine} (h : Attained host m) :
    m.Coherent host := (Visited.between h).coherent

def Booked (host : Host Primitive) (m : StandardMachine) : Prop :=
  ∃ l : Ledger Primitive, l.Reached host ∧ l.joined = m

theorem Booked.lasting (host : Host Primitive) : Lasting (Booked host) fun _ => True where
  ordinary _ _ := trivial
  operation := by
    rintro α operation _ ⟨l, reached, rfl⟩
    have same := Ledger.machine_exec_joined reached.paired operation
    exact .of_machine ⟨_, reached.operated operation, same.symm⟩
  record := by
    rintro event _ ⟨l, reached, rfl⟩
    exact ⟨_, reached.noted (event l.joined), rfl⟩
  enter := by
    rintro name tokens _ room ⟨l, reached, rfl⟩
    have few := (Ledger.room_joined reached.paired).mp room
    exact ⟨_, reached.entered name tokens few, Ledger.joined_enter reached.paired name tokens⟩
  leave := by
    rintro _ ⟨l, reached, rfl⟩
    exact ⟨_, reached.left, Ledger.joined_leave reached.paired⟩
  switch := by
    rintro mode _ ⟨l, reached, rfl⟩
    exact ⟨_, reached.switched mode, rfl⟩
  load := by
    rintro tokens _ ⟨l, reached, rfl⟩
    exact ⟨_, reached.loaded tokens, rfl⟩
  recover := by
    rintro _ ⟨l, reached, rfl⟩
    exact ⟨_, reached.recovered, Ledger.joined_recover reached.paired⟩
  empty := by
    rintro _ ⟨l, reached, rfl⟩
    exact ⟨_, reached.emptied, rfl⟩

theorem booked_of_deserialize {host : Host Primitive} {source : String} {m : StandardMachine}
    (h : deserialize host source = .ok m) : m.Booked host := by
  rw [deserialize] at h
  split at h
  · rename_i snapshot _
    obtain ⟨stack, user, -, words, inside, opened, rfl⟩ := Snapshot.exists_of_restore h
    have plain : (Ledger.defined (.ofNatives host.natives) snapshot.words).plain = ⟨host.natives, user⟩ :=
      Ledger.plain_defined words
    refine ⟨.resumed host snapshot stack, .resumed stack inside ?_, ?_⟩
    · intro name current
      rw [current] at opened
      rw [← IndexedDictionary.contains_plain, plain, Lexicon.contains_iff]
      exact Snapshot.mem_names_of_checkOpen opened
    · rw [Ledger.joined, Ledger.resumed, plain]
      rfl
  · cases h

end Machine

namespace Ledger

/-- The order in the books, and what follows for the places that are looked at through the index. -/
structure InOrder (host : Host Primitive) (l : Ledger Primitive) : Prop where
  inside : l.cursor ≤ l.input.length
  saved : ∀ caller ∈ l.callers, caller.cursor ≤ caller.input.length
  paired : l.callers.length = l.calls.length
  bounded : l.calls.length ≤ l.limit ∧ l.limit = max host.depthBound 1
  indexed : ∀ (name : String) (i : Nat), l.dictionary.user.index[name]? = some i ↔
    l.dictionary.user.entries[i]?.map Prod.fst = some name
  distinct : (l.dictionary.user.entries.toList.map Prod.fst).Nodup
  compiled : ∀ entry ∈ l.dictionary.user.entries, ∃ tokens, entry.2.body = .compiled tokens
  /-- The open definition is where the index says, and its length is the one that slots are checked by. -/
  opened : ∀ name, l.openWord = some name → ∃ i immediate tokens,
    l.dictionary.user.index[name]? = some i ∧
      l.dictionary.user.entries[i]? = some (name, .compiled immediate tokens) ∧
      l.here = .ok tokens.length l ∧ ∀ change, ∃ next, l.edit change = .ok () next

theorem regular_defined {ν : Type} {dictionary : IndexedDictionary ν} (h : dictionary.plain.Regular)
    (words : List WordEntry) : (defined dictionary words).plain.Regular := by
  induction words generalizing dictionary with
  | nil => exact h
  | cons word words ih =>
    rw [defined, List.foldl_cons]
    apply ih
    rw [IndexedDictionary.plain_define]
    exact h.define word.name word.immediate word.tokens

section

variable {host : Host Primitive} {l : Ledger Primitive}

theorem Reached.coherent (h : l.Reached host) : l.joined.Coherent host := by
  induction h with
  | start => exact Machine.coherent_start host
  | @resumed snapshot stack inside opened =>
    have none : (IndexedDictionary.ofNatives host.natives).plain.Regular :=
      (Machine.coherent_start host).dictionary
    exact {
      inside := inside
      saved := by
        intro frame mem
        cases mem
      bound := Nat.zero_add _
      natives := natives_defined _ _
      dictionary := regular_defined none _
      known := by
        intro name current
        have contained := opened name current
        rw [← IndexedDictionary.contains_plain, Lexicon.contains_iff] at contained
        exact contained }
  | operated operation before ih =>
    rw [← machine_exec_joined before.paired]
    exact ih.change (.of_exec operation _)
  | noted event before ih => exact ih.record fun _ => event
  | entered name tokens room before ih =>
    rw [joined_enter before.paired]
    exact ih.enter name tokens ((room_joined before.paired).mpr room)
  | left before ih =>
    rw [joined_leave before.paired]
    exact ih.leave
  | switched mode before ih => exact ih.withMode mode
  | loaded tokens before ih => exact ih.load tokens
  | recovered before ih =>
    rw [joined_recover before.paired]
    exact ih.recover
  | emptied before ih => exact { ih with }

theorem exists_edit {name : String} {tokens : List String} (current : l.openWord = some name)
    (body : l.dictionary.body? name = some tokens) (change : List String → List String) :
    ∃ next, l.edit change = .ok () next := by
  rw [← IndexedDictionary.body?_plain] at body
  obtain ⟨plain, edited⟩ := Dictionary.exists_editBody? body change
  rw [← IndexedDictionary.plain_editBody?] at edited
  obtain ⟨dictionary, edited, -⟩ := Option.map_eq_some_iff.mp edited
  refine ⟨{ l with dictionary := dictionary }, ?_⟩
  simp only [edit, current, edited]

theorem exists_entry (h : l.Reached host) {name : String} (current : l.openWord = some name) :
    ∃ i immediate tokens, l.dictionary.user.index[name]? = some i ∧
      l.dictionary.user.entries[i]? = some (name, .compiled immediate tokens) := by
  have known := h.coherent.known name current
  obtain ⟨i, place⟩ := Lexicon.exists_position_of_mem known
  have found : l.dictionary.user.index[name]? = some i := (l.dictionary.position?_plain name).symm.trans place
  obtain ⟨⟨_, word⟩, there, rfl⟩ := Option.map_eq_some_iff.mp ((l.dictionary.user.faithful name i).mp found)
  have listed := Array.mem_toList_iff.mpr (Array.mem_of_getElem? there)
  obtain ⟨immediate, tokens, rfl⟩ := h.coherent.dictionary.words _ listed
  exact ⟨i, immediate, tokens, found, there⟩

/-- At all times the books are in order. -/
theorem Reached.inOrder (h : l.Reached host) : l.InOrder host := by
  have coherent := h.coherent
  have paired := h.paired
  exact {
    inside := coherent.inside
    saved := by
      intro caller mem
      obtain ⟨frame, there, input, cursor⟩ := exists_frame_of_mem paired.even mem
      rw [← input, ← cursor]
      exact coherent.saved frame there
    paired := paired.even
    bounded := ⟨paired.few, (depthBound_joined paired).symm.trans coherent.bound⟩
    indexed := l.dictionary.user.faithful
    distinct := coherent.dictionary.distinct
    compiled := by
      intro entry mem
      obtain ⟨immediate, tokens, word⟩ := coherent.dictionary.words entry (Array.mem_toList_iff.mpr mem)
      exact ⟨tokens, by rw [word]; rfl⟩
    opened := by
      intro name current
      obtain ⟨i, immediate, tokens, found, there⟩ := exists_entry h current
      have body : l.dictionary.body? name = some tokens := by
        simp only [IndexedDictionary.body?, found, there]
        rfl
      refine ⟨i, immediate, tokens, found, there, ?_, fun change => ?_⟩
      · simp only [here, current, body]
      · exact exists_edit current body change }

end
end Ledger

namespace Machine

/-- What holds of a machine at all times, and what follows for the places that it looks at. -/
structure Orderly (host : Host Primitive) (m : StandardMachine) : Prop where
  inside : m.cursor ≤ m.input.length
  saved : ∀ frame ∈ m.frames, frame.cursor ≤ frame.input.length
  paired : m.calls.length = m.frames.length
  bounded : m.frames.length ≤ m.depthBound ∧ m.depthBound = max host.depthBound 1
  placed : ∀ name i, m.dictionary.user.position? name = some i ↔
    m.dictionary.user.names[i]? = some name
  distinct : m.dictionary.user.names.Nodup
  compiled : ∀ entry ∈ m.dictionary.user.entries, ∃ tokens, entry.2.body = .compiled tokens
  known : ∀ name, m.openWord = some name → m.dictionary.user.contains name = true
  /-- A block ends inside the input. -/
  blocks : ∀ closer, m.cursor + ((m.input.drop m.cursor).takeWhile (· != closer)).length ≤
    m.input.length
  /-- A word that has a place is there. -/
  there : ∀ name i, m.dictionary.user.position? name = some i → i < m.dictionary.user.entries.length
  /-- A slot that is overwritten is there. -/
  slots : ∀ index token, (∃ next, Action.patch index token m = .ok () next) ↔
    ∃ name body, m.openWord = some name ∧ m.dictionary.body? name = some body ∧ index < body.length
  /-- No command finds the open definition lost. -/
  found : ∀ (command : Command) fuel fault next, command.run fuel m = some (.error fault next) →
    ∀ name, fault.cause ≠ .definitionLost name
  /-- No word is in the way of persisting the machine. -/
  written : ∃ form, m.serialize = .ok form
  /-- It is put together from books that are in order. -/
  books : ∃ l : Ledger Primitive, l.Reached host ∧ l.joined = m ∧ l.InOrder host

/-- At all times, between commands and inside a step, whatever has succeeded or failed, a machine is
in order. -/
theorem visited_orderly {host : Host Primitive} {m : StandardMachine} (visited : Visited host m) :
    m.Orderly host := by
  have h := visited.coherent
  exact {
    inside := h.inside
    saved := h.saved
    paired := length_calls m
    bounded := ⟨Nat.le_add_right _ _, h.bound⟩
    placed := Lexicon.position?_eq_some_iff h.dictionary.distinct
    distinct := h.dictionary.distinct
    compiled := by
      intro entry mem
      obtain ⟨immediate, tokens, word⟩ := h.dictionary.words entry mem
      exact ⟨tokens, by rw [word]; rfl⟩
    known := fun name opened => (Lexicon.contains_iff _ name).mpr (h.known name opened)
    blocks := by
      intro closer
      have short := (List.takeWhile_prefix (· != closer) : _ <+: m.input.drop m.cursor).length_le
      rw [List.length_drop] at short
      have inside := h.inside
      omega
    there := fun name i place => Lexicon.position_lt place
    slots := fun index token => Action.exists_patch_iff index token m
    found := by
      intro command fuel fault next ran name lost
      have ordinary := ((Coherent.lasting host).command h ran).1
      rw [Fault.IsOrdinary, lost] at ordinary
      cases ordinary
    written := h.exists_serialize
    books := by
      obtain ⟨l, reached, joined⟩ :=
        visited.lasting (Booked.lasting host) ⟨_, .start, rfl⟩ booked_of_deserialize
      exact ⟨l, reached, joined, reached.inOrder⟩ }

def narrow : Host Primitive := { natives := Primitive.lexicon, depthBound := 2 }

/-- A machine whose next token calls a word that calls itself. -/
def digging : StandardMachine :=
  { start narrow with
    dictionary := ⟨Primitive.lexicon, ⟨[("DIG", .compiled false ["1", "DIG"])]⟩⟩
    input := [":", "DIG", "1", "DIG", ";", "DIG"]
    cursor := 5 }

/-- The machine when two words are running, and a third call is next. -/
def deep : StandardMachine :=
  { digging with
    stack := [.int 1, .int 1]
    input := ["1", "DIG"]
    cursor := 1
    frames := [⟨"DIG", 1, ["1", "DIG"], 2, .execute⟩,
      ⟨"DIG", 2, [":", "DIG", "1", "DIG", ";", "DIG"], 6, .execute⟩]
    room := 0 }

/-- The third call fails, in the middle of a step, with everything in order. -/
theorem visited_orderly_deep :
    Visited narrow deep ∧ deep.Orderly narrow ∧
      ∃ fault failed, deep.tick Primitive.handler = some (.error fault failed) ∧
        fault.kind = .callDepthExceeded := by
  have fresh : Attained narrow (start narrow) := .start
  have loaded := fresh.commanded (.load [":", "DIG", "1", "DIG", ";", "DIG"]) 0 rfl
  have attained : Attained narrow digging :=
    (((loaded.commanded .step 0 rfl).commanded .step 0 rfl).commanded .step 0 rfl).commanded .step 0 rfl
  have called : ∃ next, digging.tick Primitive.handler = some (.ok () next) ∧ Reaches 0 next deep :=
    ⟨_, rfl, .tick (by decide) rfl (.tick (by decide) rfl (.tick (by decide) rfl (.refl deep)))⟩
  obtain ⟨next, ticked, reaches⟩ := called
  have visited : Visited narrow deep :=
    .inside attained (.running ticked (.running reaches (by decide) .before))
  exact ⟨visited, visited_orderly visited, _, _, rfl, rfl⟩

end Machine
end ResumableForth
