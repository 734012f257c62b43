import ResumableForth.Proofs.Effects
import ResumableForth.Proofs.Lockstep

/-! Values below those that a program works on. An operation that succeeds has found its values on top of the
stack, so it does the same when there are more values under them and when there is text before its output.
Two native words look at the whole stack and can tell the difference; a step that runs neither of them
cannot. -/
namespace ResumableForth
namespace Machine

/-- The machine with more values under its stack and more text before its output. -/
def raised {ν : Type} (base : List Value) (text : String) (m : Machine ν) : Machine ν :=
  { m with stack := m.stack ++ base, output := text ++ m.output }

section

variable {ν α : Type} {m next : Machine ν} {x : α} (base : List Value) (text : String)

/-- An operation that succeeds takes no notice. -/
theorem exec_raised (operation : Op α) (blind : Op.Class.blind α operation)
    (done : operation.exec m = .ok x next) :
    operation.exec (m.raised base text) = .ok x (next.raised base text) := by
  have openWord : (m.raised base text).openWord = m.openWord := rfl
  have dictionary : (m.raised base text).dictionary = m.dictionary := rfl
  cases operation with
  | values => exact blind.elim
  | push value =>
    cases done
    rfl
  | pop =>
    cases stack : m.stack with
    | nil =>
      simp only [Op.exec, Action.pop, stack] at done
      cases done
    | cons value rest =>
      simp only [Op.exec, Action.pop, stack] at done
      cases done
      simp only [Op.exec, Action.pop, raised, stack, List.cons_append]
  | pick index =>
    cases found : m.stack[index]? with
    | none =>
      simp only [Op.exec, Action.pick, found] at done
      cases done
    | some value =>
      have inside : index < m.stack.length := (List.getElem?_eq_some_iff.mp found).1
      simp only [Op.exec, Action.pick, found] at done
      cases done
      simp only [Op.exec, Action.pick, raised, List.getElem?_append_left inside, found]
  | write more =>
    cases done
    simp only [Op.exec, Action.write, raised, String.append_assoc]
  | look =>
    cases done
    rfl
  | nextToken =>
    have same : (m.raised base text).token? = m.token? := rfl
    simp only [Op.exec, Action.nextToken, same] at done ⊢
    split at done <;> cases done <;> rfl
  | jump index =>
    have same : (m.raised base text).input = m.input := rfl
    simp only [Op.exec, Action.jump, same] at done ⊢
    split at done
    · rename_i inside
      cases done
      rw [if_pos inside]
      rfl
    · cases done
  | setMode mode running =>
    cases done
    rfl
  | beginDefinition name immediate =>
    simp only [Op.exec, Action.beginDefinition, openWord] at done ⊢
    split at done
    · cases done
    · cases done
      rfl
  | endDefinition =>
    simp only [Op.exec, Action.endDefinition, openWord, dictionary] at done ⊢
    split at done
    · cases done
    · cases done
      split <;> rfl
  | here =>
    simp only [Op.exec, Action.here, openWord, dictionary] at done ⊢
    split at done
    · cases done
    · split at done
      · cases done
        rfl
      · cases done
  | edit change =>
    simp only [Op.exec, Action.editDefinition, openWord, dictionary] at done ⊢
    split at done
    · cases done
    · split at done
      · cases done
        rfl
      · cases done
  | notePatch index token =>
    cases done
    rfl
  | draw span =>
    cases done
    rfl

theorem composed_raised {result : α → Prop} {action : Action ν α}
    (composed : Action.Composed .blind (fun _ => True) result action) :
    ∀ {m next : Machine ν} {x : α}, action m = .ok x next →
      action (m.raised base text) = .ok x (next.raised base text) := by
  induction composed with
  | op operation member => exact exec_raised base text operation member
  | pure h =>
    rintro m next x ⟨⟩
    rfl
  | failWith cause same => rintro m next x ⟨⟩
  | @bind _ _ _ _ first rest head tail headRaised tailRaised =>
    intro m next y done
    cases begun : first m with
    | ok x between =>
      rw [Action.bind_of_ok begun] at done
      rw [Action.bind_of_ok (headRaised begun)]
      exact tailRaised x (head.result_of_ok begun) done
    | error fault between =>
      rw [Action.bind_of_error begun] at done
      cases done

end

variable (base : List Value) (text : String)

theorem blind_of_request {m : StandardMachine} {token : String} {action : Action Primitive Unit}
    (next : m.token? = some token) (asked : (m.read token).request token = .act action)
    (single : m.native? ≠ some .isEmpty ∧ m.native? ≠ some .survey) :
    Action.Plain .blind (fun _ => True) action := by
  obtain ⟨primitive, native, rfl⟩ | rfl | rfl | rfl := action_cases next asked
  · refine .ofBlind Value.closed_true.stable ?_
    rw [native] at single
    cases primitive with
    | isEmpty => exact absurd rfl single.1
    | survey => exact absurd rfl single.2
    | _ => rfl
  · exact .push trivial trivial
  · exact (Action.Composed.edit _).mono And.left
  · exact .fail _ rfl

theorem leave_raised (m : StandardMachine) :
    (m.raised base text).leave = m.leave.raised base text := by
  have frames : (m.raised base text).frames = m.frames := rfl
  rw [leave, leave, frames]
  cases m.frames <;> rfl

theorem harmless_raised : Harmless (raised base text) where
  depth _ := rfl
  mode _ := rfl
  leave := leave_raised base text
  halt _ := rfl

theorem tick_raised {m : StandardMachine}
    (single : m.native? ≠ some .isEmpty ∧ m.native? ≠ some .survey) :
    Carried (raised base text) (fun _ => False) (m.tick Primitive.handler)
      ((m.raised base text).tick Primitive.handler) := by
  refine (harmless_raised base text).tick rfl (fun _ => rfl) (fun _ => rfl) ?_ ?_
  · intro token action next asked followed
    cases acted : action (m.read token) with
    | ok x after =>
      rw [composed_raised base text (blind_of_request next asked single) acted]
      rfl
    | error fault after =>
      rw [acted] at followed
      exact followed.elim
  · intro token name tokens _
    have room : ((m.read token).raised base text).room = (m.read token).room := rfl
    rw [call, call, room]
    split <;> rfl

/-- Values under the stack and text before the output stay where they are. A step that succeeds, and in
which neither of the two native words runs that look at the whole stack, succeeds in the same way over any
such values and behind any such text. -/
theorem step_over_base {m next : StandardMachine} {fuel : Nat}
    (stepped : m.step Primitive.handler fuel = some (.ok () next))
    (single : ∀ last, m.Ticks last → last.native? ≠ some .isEmpty ∧ last.native? ≠ some .survey)
    (base : List Value) (text : String) :
    (m.raised base text).step Primitive.handler fuel = some (.ok () (next.raised base text)) := by
  have carried : Carried (raised base text) (fun _ => False) (m.step Primitive.handler fuel)
      ((m.raised base text).step Primitive.handler fuel) :=
    (harmless_raised base text).step fun last ticks => tick_raised base text (single last ticks)
  rw [stepped] at carried
  exact carried trivial

/-- A machine whose next token is the name of a native word that looks at the whole stack, but the program
has a word of its own under this name. -/
def shadowing : StandardMachine :=
  { start { natives := Primitive.lexicon } with
    dictionary := ⟨Primitive.lexicon, ⟨[("EMPTY?", .compiled false ["1", "PICK", "."])]⟩⟩
    stack := [.int 7, .int 8]
    input := ["EMPTY?"] }

/-- The word copies the second value and writes it, whatever lies below. -/
theorem step_over_base_shadowing :
    (∀ last, shadowing.Ticks last → last.native? ≠ some .isEmpty ∧ last.native? ≠ some .survey) ∧
    ∃ next, shadowing.step Primitive.handler 9 = some (.ok () next) ∧
      next.stack = [.int 7, .int 8] ∧ next.output = "8\n" ∧
      (shadowing.raised [.bool true] "> ").step Primitive.handler 9 =
        some (.ok () (next.raised [.bool true] "> ")) := by
  have single : ∀ last, shadowing.Ticks last →
      last.native? ≠ some .isEmpty ∧ last.native? ≠ some .survey := by
    intro last ticks
    have checked : shadowing.checkStep
        (fun last => last.native? ≠ some .isEmpty ∧ last.native? ≠ some .survey) 9 = true := by decide
    exact of_decide_eq_true (check_of_ticks ticks checked)
  have ends : ∃ next, shadowing.step Primitive.handler 9 = some (.ok () next) ∧
      next.stack = [.int 7, .int 8] ∧ next.output = "8\n" := ⟨_, rfl, rfl, rfl⟩
  obtain ⟨next, stepped, stack, output⟩ := ends
  exact ⟨single, next, stepped, stack, output, step_over_base stepped single [.bool true] "> "⟩

end Machine
end ResumableForth
