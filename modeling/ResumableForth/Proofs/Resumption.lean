import ResumableForth.Trace
import ResumableForth.Proofs.Invariance
import ResumableForth.Proofs.RoundTrip

/-! Stepping through persisted states. A machine that a program has brought about, and that runs no
word, comes back from its persisted form as the very same machine, or its form is refused; so a run
that puts the machine away before each step and takes it up again does what the run in memory does.

What makes this work is an invariant of evaluation: the values on the stack agree with their texts,
the program's words are compiled ones under distinct names, an open definition is one of them, and
all cursors are inside what they point into. -/
namespace ResumableForth

namespace Value

def Persistent (value : Value) : Prop := value.WellFormed ∧ value ≠ .null

theorem closed_persistent : Closed Persistent where
  int _ := ⟨trivial, nofun⟩
  bool _ := ⟨trivial, nofun⟩
  str _ := ⟨trivial, nofun⟩
  float _ finite := ⟨wellFormed_ofFloat finite, nofun⟩

end Value

namespace Dictionary

structure Regular {ν : Type} (dictionary : Dictionary ν) : Prop where
  words : ∀ entry ∈ dictionary.user.entries, ∃ immediate tokens, entry.2 = .compiled immediate tokens
  distinct : dictionary.user.names.Nodup

namespace Regular

variable {ν : Type} {dictionary : Dictionary ν}

theorem define (h : dictionary.Regular) (name : String) (immediate : Bool) (tokens : List String) :
    (dictionary.define name (.compiled immediate tokens)).Regular where
  words := by
    intro entry mem
    rcases Lexicon.mem_entries_insert mem with rfl | old
    · exact ⟨immediate, tokens, rfl⟩
    · exact h.words entry old
  distinct := Lexicon.nodup_names_insert h.distinct name _

theorem word (h : dictionary.Regular) {name : String} {word : Word ν}
    (found : dictionary.user.find? name = some word) :
    ∃ immediate tokens, word = .compiled immediate tokens := by
  obtain ⟨i, -, here⟩ := Option.bind_eq_some_iff.mp found
  obtain ⟨entry, inside, rfl⟩ := Option.map_eq_some_iff.mp here
  exact h.words entry (List.mem_of_getElem? inside)

theorem edit (h : dictionary.Regular) {name : String} {change : List String → List String}
    {next : Dictionary ν} (edited : dictionary.editBody? name change = some next) :
    ∃ immediate tokens, next = dictionary.define name (.compiled immediate tokens) := by
  obtain ⟨word, tokens, found, body, rfl⟩ := editBody?_eq_some edited
  obtain ⟨immediate, tokens, rfl⟩ := h.word found
  exact ⟨immediate, _, rfl⟩

end Regular
end Dictionary

namespace Machine

/-- The cursor of what is being read, and the cursors of all callers, are inside; the outermost input
is no larger than a memory. -/
def Reading : List Frame → List String → Nat → Prop
  | [], input, cursor => cursor ≤ input.length ∧ input.length < 2 ^ 64
  | frame :: frames, input, cursor => cursor ≤ input.length ∧ Reading frames frame.input frame.cursor

theorem Reading.inside {frames : List Frame} {input : List String} {cursor : Nat}
    (h : Reading frames input cursor) : cursor ≤ input.length := by
  cases frames with
  | nil => exact h.1
  | cons frame frames => exact h.1

theorem Reading.move {frames : List Frame} {input : List String} {cursor index : Nat}
    (h : Reading frames input cursor) (inside : index ≤ input.length) :
    Reading (reach index frames) input index := by
  cases frames with
  | nil => exact ⟨inside, h.2⟩
  | cons frame frames => exact ⟨inside, h.2⟩

/-- What a program that started on a host brings about. -/
structure Sound (host : Host Primitive) (m : StandardMachine) : Prop where
  natives : m.dictionary.natives = host.natives
  bound : m.depthBound = max host.depthBound 1
  values : ∀ value ∈ m.stack, value.Persistent
  dictionary : m.dictionary.Regular
  known : ∀ name, m.openWord = some name → name ∈ m.dictionary.user.names
  reading : Reading m.frames m.input m.cursor

namespace Sound

variable {host : Host Primitive} {m : StandardMachine}

theorem congr {m' : StandardMachine} (h : m.Sound host) (dictionary : m'.dictionary = m.dictionary)
    (frames : m'.frames = m.frames) (room : m'.room = m.room) (stack : m'.stack = m.stack)
    (openWord : m'.openWord = m.openWord) (input : m'.input = m.input)
    (cursor : m'.cursor = m.cursor) : m'.Sound host where
  natives := by rw [dictionary, h.natives]
  bound := by rw [← h.bound, depthBound, depthBound, depth, depth, frames, room]
  values := by rw [stack]; exact h.values
  dictionary := by rw [dictionary]; exact h.dictionary
  known := by rw [openWord, dictionary]; exact h.known
  reading := by rw [frames, input, cursor]; exact h.reading

theorem push (h : m.Sound host) {value : Value} (persistent : value.Persistent) :
    (m.push value).Sound host :=
  { h with values := List.forall_mem_cons.mpr ⟨persistent, h.values⟩ }

theorem moveTo (h : m.Sound host) {index : Nat} (inside : index ≤ m.input.length) :
    (m.moveTo index).Sound host :=
  { h with
    bound := by rw [← h.bound]; simp [depthBound, Machine.moveTo, depth]
    reading := h.reading.move inside }

theorem define (h : m.Sound host) (name : String) (immediate : Bool) (tokens : List String)
    {openWord : Option String} (opened : ∀ other, openWord = some other →
      other = name ∨ other ∈ m.dictionary.user.names) (mode : Mode) :
    { m with
      dictionary := m.dictionary.define name (.compiled immediate tokens)
      openWord := openWord
      mode := mode }.Sound host :=
  { h with
    dictionary := h.dictionary.define name immediate tokens
    known := fun other open? => Lexicon.mem_names_insert.mpr (opened other open?) }

theorem leave (h : m.Sound host) : m.leave.Sound host := by
  have bound : m.leave.depthBound = max host.depthBound 1 := (depthBound_leave m).trans h.bound
  have reading := h.reading
  cases frames : m.frames with
  | nil =>
    rw [leave_of_idle frames]
    exact h
  | cons frame callers =>
    rw [frames] at reading
    simp only [Machine.leave, frames] at bound ⊢
    exact { h with bound := bound, reading := reading.2 }

theorem enter (h : m.Sound host) (name : String) (tokens : List String) (room : m.room ≠ 0) :
    (m.enter name tokens).Sound host :=
  { h with
    bound := (depthBound_enter name tokens room).trans h.bound
    reading := ⟨Nat.zero_le _, h.reading⟩ }

theorem close (h : m.Sound host) (mode : Mode) :
    ({ m with openWord := none, mode := mode } : StandardMachine).Sound host :=
  { h with known := by rintro _ ⟨⟩ }

/-- The operations keep a machine sound, and take persistent values off its stack. -/
theorem exec {α : Type} (operation : Op α) (pre : operation.Pre Value.Persistent) (h : m.Sound host) :
    Outcome.Meets (operation.Post Value.Persistent) (Sound host) (operation.exec m) := by
  cases operation with
  | values => exact ⟨h.values, h⟩
  | look => exact ⟨trivial, h⟩
  | push value => exact ⟨trivial, h.push pre⟩
  | pop =>
    simp only [Op.exec, Action.pop]
    split
    · exact h
    · rename_i value stack found
      have values := h.values
      rw [found] at values
      obtain ⟨top, below⟩ := List.forall_mem_cons.mp values
      exact ⟨top, { h with values := below }⟩
  | pick index =>
    simp only [Op.exec, Action.pick]
    split
    · rename_i value found
      exact ⟨h.values value (List.mem_of_getElem? found), h⟩
    · exact h
  | nextToken =>
    simp only [Op.exec, Action.nextToken]
    split
    · rename_i token found
      obtain ⟨inside, -⟩ := List.getElem?_eq_some_iff.mp found
      exact ⟨trivial, h.moveTo inside⟩
    · exact ⟨trivial, h⟩
  | jump index =>
    simp only [Op.exec, Action.jump]
    split
    · rename_i inside
      exact ⟨trivial, h.moveTo inside⟩
    · exact h
  | setMode mode running => exact ⟨trivial, h.congr rfl rfl rfl rfl rfl rfl rfl⟩
  | beginDefinition name immediate =>
    simp only [Op.exec, Action.beginDefinition]
    split
    · exact h
    · have noted : (m.record fun _ => .definitionBegun name immediate).Sound host :=
        h.congr rfl rfl rfl rfl rfl rfl rfl
      refine ⟨trivial, noted.define name immediate [] ?_ .compile⟩
      rintro other ⟨⟩
      exact .inl rfl
  | endDefinition =>
    simp only [Op.exec, Action.endDefinition]
    split
    · exact h
    · split
      · rename_i name _ _ body _
        have noted : (m.record fun _ => .definitionEnded name body).Sound host :=
          h.congr rfl rfl rfl rfl rfl rfl rfl
        exact ⟨trivial, noted.close .execute⟩
      · exact ⟨trivial, h.close .execute⟩
  | here =>
    simp only [Op.exec, Action.here]
    split
    · exact h
    · split
      · exact ⟨trivial, h⟩
      · exact h
  | edit change =>
    simp only [Op.exec, Action.editDefinition]
    split
    · exact h
    · split
      · rename_i name opened _ dictionary edited
        obtain ⟨immediate, tokens, rfl⟩ := h.dictionary.edit edited
        exact ⟨trivial, h.define name immediate tokens (fun other o => .inr (h.known other o)) m.mode⟩
      · exact h
  | notePatch index token => exact ⟨trivial, h.congr rfl rfl rfl rfl rfl rfl rfl⟩
  | write text => exact ⟨trivial, h.congr rfl rfl rfl rfl rfl rfl rfl⟩
  | draw span => exact ⟨trivial, h.congr rfl rfl rfl rfl rfl rfl rfl⟩

theorem invariant (host : Host Primitive) : Invariant Value.Persistent (Sound host) where
  closed := Value.closed_persistent
  operation operation pre _ h := h.exec operation pre
  record _ _ h := h.congr rfl rfl rfl rfl rfl rfl rfl
  enter name tokens _ _ _ _ room h := h.enter name tokens room
  leave _ h := h.leave
  halt _ _ h := h.congr rfl rfl rfl rfl rfl rfl rfl

end Sound

theorem sound_start (host : Host Primitive) : (start host).Sound host where
  natives := rfl
  bound := Nat.zero_add _
  values := nofun
  dictionary := ⟨nofun, List.nodup_nil⟩
  known := nofun
  reading := ⟨Nat.le_refl 0, Nat.two_pow_pos 64⟩

theorem Sound.load {host : Host Primitive} {m : StandardMachine} (h : m.Sound host)
    (idle : m.frames = []) {tokens : List String} (fits : tokens.length < 2 ^ 64) :
    (m.load tokens).Sound host :=
  { h with
    reading := by
      change Reading m.frames tokens 0
      rw [idle]
      exact ⟨Nat.zero_le _, fits⟩ }

theorem Sound.recover {host : Host Primitive} {m : StandardMachine} (h : m.Sound host) :
    m.recover.Sound host :=
  { h with
    bound := (depthBound_recover m).trans h.bound
    reading := ⟨Nat.le_refl 0, Nat.two_pow_pos 64⟩ }

/-- What can be brought about on a host by loading texts, running them, evaluating single tokens and
recovering, with whatever outcome. A text has fewer tokens than a memory has places. -/
inductive Reachable (host : Host Primitive) : StandardMachine → Prop
  | start : Reachable host (start host)
  | load {m : StandardMachine} (source : String) (fits : (Text.tokens source).length < 2 ^ 64)
    (before : Reachable host m) : Reachable host (m.loadText source)
  | interpreted {m : StandardMachine} {fuel : Nat} {outcome : Outcome Primitive Unit}
    (source : String) (fits : (Text.tokens source).length < 2 ^ 64) (before : Reachable host m)
    (ran : m.interpret Primitive.handler fuel source = some outcome) :
    Reachable host outcome.machine
  | stepped {m : StandardMachine} {fuel : Nat} {outcome : Outcome Primitive Unit}
    (before : Reachable host m) (ran : m.step Primitive.handler fuel = some outcome) :
    Reachable host outcome.machine
  | recovered {m : StandardMachine} (before : Reachable host m) : Reachable host m.recover

def standardHost : Host Primitive := { natives := Primitive.lexicon }

/-- Between evaluations a machine is sound, and no word is running. -/
theorem Reachable.sound {host : Host Primitive} {m : StandardMachine} (h : Reachable host m) :
    m.Sound host ∧ m.frames = [] := by
  have idle : ∀ {m next : StandardMachine}, m.frames = [] → next.depth ≤ m.depth → next.frames = [] := by
    intro m next idle low
    rw [frames_eq_nil_iff] at idle ⊢
    omega
  induction h with
  | start => exact ⟨sound_start host, rfl⟩
  | load source fits before ih => exact ⟨ih.1.load ih.2 fits, ih.2⟩
  | @interpreted m _ outcome source fits before ran ih =>
    have loaded := ih.1.load ih.2 fits
    have low : outcome.machine.depth ≤ (m.loadText source).depth := depth_of_runToHalt ran
    exact ⟨(Sound.invariant host).runToHalt loaded ran, idle ih.2 low⟩
  | stepped before ran ih =>
    exact ⟨(Sound.invariant host).step ih.1 ran, idle ih.2 (depth_of_step ran)⟩
  | recovered before ih => exact ⟨ih.1.recover, rfl⟩

/-- The states that can be put away: all names are tokens, and a definition is open while
compiling. -/
structure Writable {ν : Type} (m : Machine ν) : Prop where
  named : ∀ name ∈ m.dictionary.user.names, Text.isToken name = true
  opened : m.mode = .compile → m.openWord ≠ none

instance {ν : Type} (m : Machine ν) : Decidable m.Writable :=
  decidable_of_iff ((∀ name ∈ m.dictionary.user.names, Text.isToken name = true) ∧
    (m.mode = .compile → m.openWord ≠ none)) ⟨fun h => ⟨h.1, h.2⟩, fun h => ⟨h.1, h.2⟩⟩

namespace Sound

variable {host : Host Primitive} {m : StandardMachine}

theorem persistable (h : m.Sound host) (idle : m.frames = []) : m.Persistable where
  idle := idle
  values value mem := (h.values value mem).1
  compiled entry mem := by
    obtain ⟨immediate, tokens, word⟩ := h.dictionary.words entry mem
    rw [word]
    rfl
  distinct := h.dictionary.distinct
  inside := h.reading.inside
  counted := by
    have reading := h.reading
    rw [idle] at reading
    exact Nat.lt_of_le_of_lt reading.1 reading.2
  known := h.known

theorem present (h : m.Sound host) : .null ∉ m.stack := fun mem => (h.values .null mem).2 rfl

theorem acceptable_iff (h : m.Sound host) : m.Acceptable ↔ m.Writable :=
  ⟨fun ok => ⟨ok.named, ok.opened⟩, fun ok => ⟨h.present, ok.named, ok.opened⟩⟩

theorem wordsOf_eq (h : m.Sound host) :
    Snapshot.wordsOf m.snapshot.words = m.dictionary.user.entries := by
  rw [Snapshot.wordsOf, snapshot, List.map_map]
  conv => rhs; rw [← List.map_id m.dictionary.user.entries]
  apply List.map_congr_left
  intro entry mem
  obtain ⟨immediate, tokens, word⟩ := h.dictionary.words entry mem
  simp [Snapshot.entryOf, word, Prod.ext_iff]

theorem resumed_eq (h : m.Sound host) (idle : m.frames = []) :
    m.resumed { host with generator := m.generator, journal := m.journal } = m := by
  have room : max host.depthBound 1 = m.room := by
    rw [← h.bound, depthBound, depth, idle]
    exact Nat.zero_add _
  rw [resumed, h.wordsOf_eq, Snapshot.assemble]
  simp only [start, room, ← h.natives]
  rw [← idle]
  rfl

/-- A state that can be put away is stepped as in memory, and any other one is refused. -/
theorem persistedStep_eq (h : m.Sound host) (idle : m.frames = []) (ok : m.Writable) (fuel : Nat) :
    m.persistedStep host Primitive.handler fuel =
      (m.step Primitive.handler fuel).map m.attempted := by
  have persistable := h.persistable idle
  rw [persistedStep, serialize_eq persistable]
  simp only [Except.bind]
  rw [deserialize_encode _ persistable,
    restore_snapshot _ persistable (h.acceptable_iff.mpr ok), h.resumed_eq idle]

theorem persistedStep_refused (h : m.Sound host) (idle : m.frames = []) (bad : ¬ m.Writable)
    (fuel : Nat) : ∃ fault, m.persistedStep host Primitive.handler fuel = some (.error fault m) ∧
      fault.kind = .codec := by
  have persistable := h.persistable idle
  rw [persistedStep, serialize_eq persistable]
  simp only [Except.bind]
  rw [deserialize_encode _ persistable]
  cases restored : m.snapshot.restore _ with
  | ok m' => exact absurd (h.acceptable_iff.mp (acceptable_of_restore restored)) bad
  | error fault => exact ⟨fault, rfl, Snapshot.kind_of_restore_error restored⟩

end Sound

def stepTimes {ν : Type} (step : Machine ν → Option (Outcome ν Unit)) :
    Nat → Machine ν → Option (Outcome ν Unit)
  | 0, m => some (.ok () m)
  | count + 1, m =>
    match step m with
    | some (.ok _ next) => stepTimes step count next
    | other => other

/-- Two runs that agree: neither has ended, both have come to the same machine, or both have failed
with the same cause and the same running words. -/
inductive Agree {ν : Type} : Option (Outcome ν Unit) → Option (Outcome ν Unit) → Prop
  | unfinished : Agree none none
  | done (m : Machine ν) : Agree (some (.ok () m)) (some (.ok () m))
  | failed (fault : Fault) (m m' : Machine ν) :
    Agree (some (.error fault m)) (some (.error fault m'))

def Arrives {ν : Type} (state : Machine ν → Prop) : Option (Outcome ν Unit) → Prop
  | some (.ok _ m) => state m
  | _ => True

instance {ν : Type} (state : Machine ν → Prop) [DecidablePred state] :
    DecidablePred (Arrives state)
  | none => .isTrue trivial
  | some (.ok _ m) => inferInstanceAs (Decidable (state m))
  | some (.error _ _) => .isTrue trivial

def WritableAlong (fuel count : Nat) (m : StandardMachine) : Prop :=
  ∀ k < count, Arrives Writable (stepTimes (step Primitive.handler fuel) k m)

theorem WritableAlong.head {fuel count : Nat} {m : StandardMachine}
    (h : WritableAlong fuel (count + 1) m) : m.Writable :=
  h 0 (Nat.succ_pos count)

theorem stepTimes_succ_of_ok {ν : Type} {step : Machine ν → Option (Outcome ν Unit)}
    {m next : Machine ν} (h : step m = some (.ok () next)) (count : Nat) :
    stepTimes step (count + 1) m = stepTimes step count next := by
  rw [stepTimes, h]

theorem WritableAlong.tail {fuel count : Nat} {m next : StandardMachine}
    (h : WritableAlong fuel (count + 1) m)
    (stepped : m.step Primitive.handler fuel = some (.ok () next)) :
    WritableAlong fuel count next := by
  intro k low
  rw [← stepTimes_succ_of_ok stepped]
  exact h (k + 1) (Nat.succ_lt_succ low)

namespace Sound

variable {host : Host Primitive} {m : StandardMachine}

/-- As long as the states can be put away, the two runs agree. -/
theorem agree (h : m.Sound host) (idle : m.frames = []) {fuel count : Nat}
    (along : WritableAlong fuel count m) :
    Agree (stepTimes (step Primitive.handler fuel) count m)
      (stepTimes (persistedStep host Primitive.handler fuel) count m) := by
  induction count generalizing m with
  | zero => exact .done m
  | succ count ih =>
    have same := h.persistedStep_eq idle along.head fuel
    rw [stepTimes, stepTimes, same]
    cases stepped : m.step Primitive.handler fuel with
    | none => exact .unfinished
    | some outcome =>
      cases outcome with
      | ok _ next =>
        have sound : next.Sound host := (invariant host).step h stepped
        have low : next.depth ≤ m.depth := depth_of_step stepped
        rw [frames_eq_nil_iff] at idle
        exact ih sound ((frames_eq_nil_iff next).mpr (by omega)) (along.tail stepped)
      | error fault next => exact .failed fault _ _

/-- The first state that cannot be put away ends the persisted run. -/
theorem refused (h : m.Sound host) (idle : m.frames = []) {fuel count later : Nat}
    (along : WritableAlong fuel count m) {last : StandardMachine}
    (ran : stepTimes (step Primitive.handler fuel) count m = some (.ok () last))
    (bad : ¬ last.Writable) (behind : count < later) :
    ∃ fault, stepTimes (persistedStep host Primitive.handler fuel) later m =
      some (.error fault last) ∧ fault.kind = .codec := by
  induction count generalizing m later with
  | zero =>
    obtain ⟨later, rfl⟩ := Nat.exists_eq_succ_of_ne_zero (Nat.ne_of_gt behind)
    cases ran
    obtain ⟨fault, failed, kind⟩ := h.persistedStep_refused idle bad fuel
    refine ⟨fault, ?_, kind⟩
    rw [stepTimes, failed]
  | succ count ih =>
    obtain ⟨later, rfl⟩ := Nat.exists_eq_succ_of_ne_zero (Nat.ne_of_gt (Nat.zero_lt_of_lt behind))
    have same := h.persistedStep_eq idle along.head fuel
    rw [stepTimes] at ran
    cases stepped : m.step Primitive.handler fuel with
    | none => simp [stepped] at ran
    | some outcome =>
      rw [stepped] at ran same
      cases outcome with
      | ok _ next =>
        have sound : next.Sound host := (invariant host).step h stepped
        have low : next.depth ≤ m.depth := depth_of_step stepped
        rw [frames_eq_nil_iff] at idle
        rw [stepTimes_succ_of_ok same]
        exact ih sound ((frames_eq_nil_iff next).mpr (by omega)) (along.tail stepped) ran
          (Nat.lt_of_succ_lt_succ behind)
      | error fault next => cases ran

end Sound

/-- Stepping through persisted states does what stepping in memory does, for as long as the states
passed can be put away. At the first one that cannot, the persisted run fails with a fault of the
persisted form; it never goes on with another state. -/
theorem persisted_run_agrees {host : Host Primitive} {m : StandardMachine}
    (reachable : Reachable host m) (fuel count : Nat) (along : WritableAlong fuel count m) :
    Agree (stepTimes (step Primitive.handler fuel) count m)
        (stepTimes (persistedStep host Primitive.handler fuel) count m) ∧
      ∀ last, stepTimes (step Primitive.handler fuel) count m = some (.ok () last) →
        ¬ last.Writable → ∀ later, count < later →
          ∃ fault, stepTimes (persistedStep host Primitive.handler fuel) later m =
            some (.error fault last) ∧ fault.kind = .codec := by
  obtain ⟨sound, idle⟩ := reachable.sound
  refine ⟨sound.agree idle along, ?_⟩
  intro last ran bad later behind
  exact sound.refused idle along ran bad behind

/-- A machine that is about to define an immediate word with a lone semicolon for a body, and to
call it inside the next definition. -/
def ending : StandardMachine :=
  (start { natives := Primitive.lexicon }).loadText ": E IMMEDIATE ] ;_ \" , [ ] ; : A E"

/-- The ninth step goes on compiling although it has closed the definition. -/
theorem persisted_run_agrees_ending :
    Reachable { natives := Primitive.lexicon } ending ∧ WritableAlong 4 9 ending ∧
      ∃ last fault, stepTimes (step Primitive.handler 4) 9 ending = some (.ok () last) ∧
        ¬ last.Writable ∧
        stepTimes (persistedStep { natives := Primitive.lexicon } Primitive.handler 4) 10 ending =
          some (.error fault last) ∧ fault.kind = .codec := by
  have reachable : Reachable { natives := Primitive.lexicon } ending :=
    .load _ (by decide +kernel) .start
  have along : WritableAlong 4 9 ending := by
    rw [WritableAlong]
    decide +kernel
  have arrives : ∃ last, stepTimes (step Primitive.handler 4) 9 ending = some (.ok () last) ∧
      ¬ last.Writable := by
    have unwritable : Arrives (fun last => ¬ last.Writable)
        (stepTimes (step Primitive.handler 4) 9 ending) := by decide +kernel
    have ended : ∃ last, stepTimes (step Primitive.handler 4) 9 ending = some (.ok () last) :=
      ⟨_, rfl⟩
    obtain ⟨last, ran⟩ := ended
    rw [ran] at unwritable
    exact ⟨last, ran, unwritable⟩
  obtain ⟨last, ran, bad⟩ := arrives
  obtain ⟨fault, failed, kind⟩ :=
    (persisted_run_agrees reachable 4 9 along).2 last ran bad 10 (by decide)
  exact ⟨reachable, along, last, fault, ran, bad, failed, kind⟩

end Machine
end ResumableForth
