import ResumableForth.Json
import ResumableForth.Proofs.Numeral

/-! Which texts stand for a JSON value. A value has one list of tokens, and a text spells it when it is made
of a spelling of each token in order, with spaces before, between and behind them. A number is spelled by
its numeral. A string has many spellings, since each of its characters can be written by itself, as an escape
or by its code, and a code beyond 16 bits by two of them. The definitions say this without following the
scanner; the phases of a numeral and the codes of a string are then shown to be what they say. -/
namespace ResumableForth
namespace Json

mutual

def tokensOf : Json → List Token
  | .null => [.null]
  | .bool b => [.bool b]
  | .number numeral => [.number numeral]
  | .string text => [.string text]
  | .array items => .openArray :: ((tokensOfItems items).drop 1 ++ [.closeArray])
  | .object members => .openObject :: ((tokensOfMembers members).drop 1 ++ [.closeObject])

def tokensOfItems : List Json → List Token
  | [] => []
  | item :: items => .comma :: (tokensOf item ++ tokensOfItems items)

def tokensOfMembers : List (Option String × Json) → List Token
  | [] => []
  | (key, value) :: members =>
    .comma :: .string key :: .colon :: (tokensOf value ++ tokensOfMembers members)

end

def AreDigits (chars : List Char) : Prop := ∀ c ∈ chars, Decimal.isDigit c = true

def IsWhole (chars : List Char) : Prop :=
  chars = ['0'] ∨ chars ≠ [] ∧ AreDigits chars ∧ chars.head? ≠ some '0'

def IsFraction (chars : List Char) : Prop :=
  chars = [] ∨ ∃ digits, digits ≠ [] ∧ AreDigits digits ∧ chars = '.' :: digits

def IsExponent (chars : List Char) : Prop :=
  chars = [] ∨ ∃ mark sign digits, (mark = 'e' ∨ mark = 'E') ∧ (sign = [] ∨ sign = ['+'] ∨ sign = ['-']) ∧
    digits ≠ [] ∧ AreDigits digits ∧ chars = mark :: (sign ++ digits)

/-- A numeral: no zero stands in front of another digit, and no point without digits on both sides. -/
def IsNumeral (chars : List Char) : Prop :=
  ∃ sign whole fraction exponent, (sign = [] ∨ sign = ['-']) ∧ IsWhole whole ∧ IsFraction fraction ∧
    IsExponent exponent ∧ chars = sign ++ (whole ++ (fraction ++ exponent))

def hexValue? (code : Nat) (digits : List Char) : Option Nat :=
  digits.foldlM (fun code c => (hexDigit? c).map (16 * code + ·)) code

/-- How a code is written inside a string. -/
inductive Piece : Nat → List Char → Prop
  | plain (c : Char) (visible : 0x20 ≤ c.toNat) (quote : c ≠ '"') (backslash : c ≠ '\\') : Piece c.toNat [c]
  | short {c : Char} {code : Nat} (known : escaped? c = some code) : Piece code ['\\', c]
  | hex {digits : List Char} {code : Nat} (four : digits.length = 4)
    (value : hexValue? 0 digits = some code) : Piece code ('\\' :: 'u' :: digits)

inductive Pieces : List Nat → List Char → Prop
  | nil : Pieces [] []
  | cons {code : Nat} {codes : List Nat} {text rest : List Char} (first : Piece code text)
    (later : Pieces codes rest) : Pieces (code :: codes) (text ++ rest)

/-- Codes stand for characters, one each, or two that make up a surrogate pair. -/
inductive Encodes : List Nat → List Char → Prop
  | nil : Encodes [] []
  | single (c : Char) {codes : List Nat} {chars : List Char} (later : Encodes codes chars) :
    Encodes (c.toNat :: codes) (c :: chars)
  | pair {high low : Nat} {codes : List Nat} {chars : List Char} (c : Char)
    (first : isHighSurrogate high = true) (second : isLowSurrogate low = true)
    (joined : c.toNat = joinSurrogates high low) (later : Encodes codes chars) :
    Encodes (high :: low :: codes) (c :: chars)

/-- Is this the text that the codes stand for, or nothing, when they stand for no text? -/
def Decodes (codes : List Nat) : Option String → Prop
  | some text => Encodes codes text.toList
  | none => ∀ chars, ¬ Encodes codes chars

inductive Token.Spells : Token → List Char → Prop
  | openArray : Token.Spells .openArray ['[']
  | closeArray : Token.Spells .closeArray [']']
  | openObject : Token.Spells .openObject ['\x7b']
  | closeObject : Token.Spells .closeObject ['\x7d']
  | comma : Token.Spells .comma [',']
  | colon : Token.Spells .colon [':']
  | null : Token.Spells .null ['n', 'u', 'l', 'l']
  | truth : Token.Spells (.bool true) ['t', 'r', 'u', 'e']
  | falsehood : Token.Spells (.bool false) ['f', 'a', 'l', 's', 'e']
  | number {numeral : String} (written : IsNumeral numeral.toList) :
    Token.Spells (.number numeral) numeral.toList
  | string {codes : List Nat} {body : List Char} {text : Option String} (pieces : Pieces codes body)
    (decodes : Decodes codes text) : Token.Spells (.string text) ('"' :: (body ++ ['"']))

def AreSpaces (chars : List Char) : Prop :=
  ∀ c ∈ chars, c = ' ' ∨ c = '\t' ∨ c = '\n' ∨ c = '\r'

/-- A text that is made of tokens, with spaces before, between and behind them. -/
inductive Spells : List Token → List Char → Prop
  | nil {spaces : List Char} (blank : AreSpaces spaces) : Spells [] spaces
  | cons {token : Token} {tokens : List Token} {spaces text rest : List Char} (blank : AreSpaces spaces)
    (first : token.Spells text) (later : Spells tokens rest) :
    Spells (token :: tokens) (spaces ++ (text ++ rest))

def SpelledBy (value : Json) (source : String) : Prop := Spells (tokensOf value) source.toList

namespace NumberPhase

/-- What a numeral goes on with, after a phase of it. -/
def Rest : NumberPhase → List Char → Prop
  | .sign, chars => ∃ whole fraction exponent, IsWhole whole ∧ IsFraction fraction ∧ IsExponent exponent ∧
    chars = whole ++ (fraction ++ exponent)
  | .zero, chars => ∃ fraction exponent, IsFraction fraction ∧ IsExponent exponent ∧
    chars = fraction ++ exponent
  | .whole, chars => ∃ digits fraction exponent, AreDigits digits ∧ IsFraction fraction ∧
    IsExponent exponent ∧ chars = digits ++ (fraction ++ exponent)
  | .point, chars => ∃ digits exponent, digits ≠ [] ∧ AreDigits digits ∧ IsExponent exponent ∧
    chars = digits ++ exponent
  | .decimals, chars => ∃ digits exponent, AreDigits digits ∧ IsExponent exponent ∧
    chars = digits ++ exponent
  | .mark, chars => ∃ sign digits, (sign = [] ∨ sign = ['+'] ∨ sign = ['-']) ∧ digits ≠ [] ∧
    AreDigits digits ∧ chars = sign ++ digits
  | .markSign, chars => chars ≠ [] ∧ AreDigits chars
  | .exponent, chars => AreDigits chars

end NumberPhase

theorem areDigits_cons {c : Char} {chars : List Char} (digit : Decimal.isDigit c = true)
    (others : AreDigits chars) : AreDigits (c :: chars) :=
  List.forall_mem_cons.mpr ⟨digit, others⟩

theorem areDigits_nil : AreDigits [] := List.forall_mem_nil _

theorem isExponent_nil : IsExponent [] := .inl rfl

theorem isFraction_nil : IsFraction [] := .inl rfl

theorem isNumeral_of_isWhole {whole : List Char} (h : IsWhole whole) : IsNumeral whole :=
  ⟨[], whole, [], [], .inl rfl, h, isFraction_nil, isExponent_nil, by simp⟩

theorem isNumeral_numeral (n : Nat) : IsNumeral (Decimal.numeral n).toList := by
  apply isNumeral_of_isWhole
  rw [Decimal.toList_numeral]
  by_cases zero : n = 0
  · subst zero
    exact .inl (by rw [Nat.toDigits_zero])
  · obtain ⟨c, rest, digits, first⟩ := Decimal.exists_toDigits_cons zero
    refine .inr ⟨Nat.toDigits_ne_nil, fun c => Decimal.isDigit_of_mem_toDigits, ?_⟩
    rw [digits]
    simpa using first

/-- A numeral that is made of digits is the one of the number that it stands for. -/
theorem eq_toDigits_of_natural? {chars : List Char} (written : IsNumeral chars) {n : Nat}
    (read : Decimal.natural? chars = some n) : chars = Nat.toDigits 10 n := by
  rw [Decimal.natural?] at read
  split at read
  · rename_i digits
    cases read
    rw [Bool.and_eq_true, List.all_eq_true] at digits
    obtain ⟨sign, whole, fraction, exponent, signs, wholes, decimals, behind, rfl⟩ := written
    have all := digits.2
    simp only [List.mem_append] at all
    obtain rfl : sign = [] := by
      rcases signs with rfl | rfl
      · rfl
      · exact absurd (all '-' (by simp)) (by decide)
    obtain rfl : fraction = [] := by
      rcases decimals with rfl | ⟨places, -, -, rfl⟩
      · rfl
      · exact absurd (all '.' (by simp)) (by decide)
    obtain rfl : exponent = [] := by
      rcases behind with rfl | ⟨mark, _, _, rfl | rfl, -, -, -, rfl⟩
      · rfl
      · exact absurd (all 'e' (by simp)) (by decide)
      · exact absurd (all 'E' (by simp)) (by decide)
    rw [List.append_nil, List.append_nil, List.nil_append]
    rcases wholes with rfl | ⟨some, digits, leading⟩
    · rfl
    · exact (Decimal.toDigits_value some digits leading).symm
  · cases read

namespace NumberPhase

theorem isExponent_of_mark {c : Char} {chars : List Char} (mark : isMark c = true)
    (rest : Rest .mark chars) : IsExponent (c :: chars) := by
  obtain ⟨sign, digits, signs, some, all, rfl⟩ := rest
  have marks : c = 'e' ∨ c = 'E' := by simpa [isMark] using mark
  exact .inr ⟨c, sign, digits, marks, signs, some, all, rfl⟩

theorem isFraction_of_point {chars : List Char} (rest : Rest .point chars) :
    ∃ fraction exponent, IsFraction fraction ∧ IsExponent exponent ∧ '.' :: chars = fraction ++ exponent := by
  obtain ⟨digits, exponent, some, all, behind, rfl⟩ := rest
  exact ⟨'.' :: digits, exponent, .inr ⟨digits, some, all, rfl⟩, behind, rfl⟩

theorem rest_zero_of_point_or_mark {c : Char} {next : NumberPhase} {chars : List Char}
    (goes : (if c = '.' then some point else if isMark c then some mark else none) = some next)
    (rest : Rest next chars) : Rest .zero (c :: chars) := by
  split at goes
  · subst c
    cases goes
    exact isFraction_of_point rest
  · split at goes
    · rename_i marked
      cases goes
      exact ⟨[], c :: chars, isFraction_nil, isExponent_of_mark marked rest, rfl⟩
    · cases goes

theorem rest_cons {phase next : NumberPhase} {c : Char} {chars : List Char}
    (goes : phase.next c = some next) (rest : Rest next chars) : Rest phase (c :: chars) := by
  cases phase with
  | sign =>
    rw [NumberPhase.next] at goes
    split at goes
    · subst c
      cases goes
      obtain ⟨fraction, exponent, decimals, behind, rfl⟩ := rest
      exact ⟨['0'], fraction, exponent, .inl rfl, decimals, behind, rfl⟩
    · rename_i zero
      split at goes
      · rename_i digit
        cases goes
        obtain ⟨digits, fraction, exponent, all, decimals, behind, rfl⟩ := rest
        have whole : IsWhole (c :: digits) :=
          .inr ⟨List.cons_ne_nil _ _, areDigits_cons digit all, by simpa using zero⟩
        exact ⟨c :: digits, fraction, exponent, whole, decimals, behind, rfl⟩
      · cases goes
  | zero => exact rest_zero_of_point_or_mark goes rest
  | whole =>
    rw [NumberPhase.next] at goes
    split at goes
    · rename_i digit
      cases goes
      obtain ⟨digits, fraction, exponent, all, decimals, behind, rfl⟩ := rest
      exact ⟨c :: digits, fraction, exponent, areDigits_cons digit all, decimals, behind, rfl⟩
    · obtain ⟨fraction, exponent, decimals, behind, same⟩ := rest_zero_of_point_or_mark goes rest
      exact ⟨[], fraction, exponent, areDigits_nil, decimals, behind, same⟩
  | point =>
    rw [NumberPhase.next] at goes
    split at goes
    · rename_i digit
      cases goes
      obtain ⟨digits, exponent, all, behind, rfl⟩ := rest
      exact ⟨c :: digits, exponent, List.cons_ne_nil _ _, areDigits_cons digit all, behind, rfl⟩
    · cases goes
  | decimals =>
    rw [NumberPhase.next] at goes
    split at goes
    · rename_i digit
      cases goes
      obtain ⟨digits, exponent, all, behind, rfl⟩ := rest
      exact ⟨c :: digits, exponent, areDigits_cons digit all, behind, rfl⟩
    · split at goes
      · rename_i marked
        cases goes
        exact ⟨[], c :: chars, areDigits_nil, isExponent_of_mark marked rest, rfl⟩
      · cases goes
  | mark =>
    rw [NumberPhase.next] at goes
    split at goes
    · rename_i signed
      cases goes
      have sign : [c] = [] ∨ [c] = ['+'] ∨ [c] = ['-'] := by simpa using signed
      exact ⟨[c], chars, sign, rest.1, rest.2, rfl⟩
    · split at goes
      · rename_i digit
        cases goes
        exact ⟨[], c :: chars, .inl rfl, List.cons_ne_nil _ _, areDigits_cons digit rest, rfl⟩
      · cases goes
  | markSign =>
    rw [NumberPhase.next] at goes
    split at goes
    · rename_i digit
      cases goes
      exact ⟨List.cons_ne_nil _ _, areDigits_cons digit rest⟩
    · cases goes
  | exponent =>
    rw [NumberPhase.next] at goes
    split at goes
    · rename_i digit
      cases goes
      exact areDigits_cons digit rest
    · cases goes

theorem rest_nil {phase : NumberPhase} (ends : phase.isEnd = true) : Rest phase [] := by
  cases phase with
  | zero => exact ⟨[], [], isFraction_nil, isExponent_nil, rfl⟩
  | whole => exact ⟨[], [], [], areDigits_nil, isFraction_nil, isExponent_nil, rfl⟩
  | decimals => exact ⟨[], [], areDigits_nil, isExponent_nil, rfl⟩
  | exponent => exact areDigits_nil
  | sign | point | mark | markSign => cases ends

theorem rest_of_foldlM {chars : List Char} {start stop : NumberPhase}
    (phases : chars.foldlM next start = some stop) (ends : stop.isEnd = true) : Rest start chars := by
  induction chars generalizing start with
  | nil =>
    obtain rfl : start = stop := by simpa using phases
    exact rest_nil ends
  | cons c chars ih =>
    rw [List.foldlM_cons] at phases
    obtain ⟨phase, goes, later⟩ := Option.bind_eq_some_iff.mp phases
    exact rest_cons goes (ih later)

def first (c : Char) : Option NumberPhase :=
  if c = '-' then some .sign
  else if c = '0' then some .zero
  else if Decimal.isDigit c then some .whole
  else none

theorem isNumeral_of_foldlM {c : Char} {chars : List Char} {start stop : NumberPhase}
    (begins : first c = some start) (phases : chars.foldlM next start = some stop)
    (ends : stop.isEnd = true) : IsNumeral (c :: chars) := by
  have rest := rest_of_foldlM phases ends
  rw [first] at begins
  split at begins
  · subst c
    cases begins
    obtain ⟨whole, fraction, exponent, digits, decimals, behind, rfl⟩ := rest
    exact ⟨['-'], whole, fraction, exponent, .inr rfl, digits, decimals, behind, rfl⟩
  · split at begins
    · subst c
      cases begins
      obtain ⟨fraction, exponent, decimals, behind, rfl⟩ := rest
      exact ⟨[], ['0'], fraction, exponent, .inl rfl, .inl rfl, decimals, behind, rfl⟩
    · split at begins
      · rename_i zero digit
        cases begins
        obtain ⟨digits, fraction, exponent, all, decimals, behind, rfl⟩ := rest
        have whole : IsWhole (c :: digits) :=
          .inr ⟨List.cons_ne_nil _ _, areDigits_cons digit all, by simpa using zero⟩
        exact ⟨[], c :: digits, fraction, exponent, .inl rfl, whole, decimals, behind, rfl⟩
      · cases begins

theorem foldlM_next_digits {phase : NumberPhase} {digits : List Char}
    (stays : ∀ c, Decimal.isDigit c = true → phase.next c = some phase) (all : AreDigits digits) :
    digits.foldlM next phase = some phase := by
  induction digits with
  | nil => rfl
  | cons c digits ih =>
    obtain ⟨digit, others⟩ := List.forall_mem_cons.mp all
    rw [List.foldlM_cons, stays c digit]
    exact ih others

theorem foldlM_next_exponent {chars : List Char} (h : IsExponent chars) {phase : NumberPhase}
    (ends : phase.isEnd = true) (goes : ∀ c, isMark c = true → phase.next c = some .mark) :
    ∃ stop, chars.foldlM next phase = some stop ∧ stop.isEnd = true := by
  rcases h with rfl | ⟨mark, sign, digits, marks, signs, some, all, rfl⟩
  · exact ⟨phase, rfl, ends⟩
  · refine ⟨.exponent, ?_, rfl⟩
    have marked : isMark mark = true := by simpa [isMark] using marks
    obtain ⟨d, digits, rfl⟩ := List.exists_cons_of_ne_nil some
    obtain ⟨digit, others⟩ := List.forall_mem_cons.mp all
    have run : digits.foldlM next .exponent = .some .exponent :=
      foldlM_next_digits (fun c h => by simp [NumberPhase.next, h]) others
    have plus : d ≠ '+' := by
      rintro rfl
      exact absurd digit (by decide)
    have minus : d ≠ '-' := by
      rintro rfl
      exact absurd digit (by decide)
    rw [List.foldlM_cons, goes mark marked]
    rcases signs with rfl | rfl | rfl <;>
      simp [NumberPhase.next, digit, plus, minus, run]

theorem foldlM_next_fraction {fraction exponent : List Char} (h : IsFraction fraction)
    (behind : IsExponent exponent) {phase : NumberPhase} (ends : phase.isEnd = true)
    (point : phase.next '.' = some .point) (goes : ∀ c, isMark c = true → phase.next c = some .mark) :
    ∃ stop, (fraction ++ exponent).foldlM next phase = some stop ∧ stop.isEnd = true := by
  rcases h with rfl | ⟨digits, some, all, rfl⟩
  · exact foldlM_next_exponent behind ends goes
  · obtain ⟨d, digits, rfl⟩ := List.exists_cons_of_ne_nil some
    obtain ⟨digit, others⟩ := List.forall_mem_cons.mp all
    have run : digits.foldlM next .decimals = .some .decimals :=
      foldlM_next_digits (fun c h => by simp [NumberPhase.next, h]) others
    have marked (c : Char) (h : isMark c = true) : NumberPhase.next .decimals c = .some .mark := by
      have letter : Decimal.isDigit c = false := by
        rcases (by simpa [isMark] using h : c = 'e' ∨ c = 'E') with rfl | rfl <;> decide
      simp [NumberPhase.next, letter, h]
    obtain ⟨stop, later, last⟩ := foldlM_next_exponent behind (rfl : NumberPhase.decimals.isEnd = true) marked
    refine ⟨stop, ?_, last⟩
    rw [List.cons_append, List.foldlM_cons, point, Option.bind_eq_bind, Option.bind_some, List.cons_append,
      List.foldlM_cons, show NumberPhase.next .point d = .some .decimals by simp [NumberPhase.next, digit],
      Option.bind_eq_bind, Option.bind_some, List.foldlM_append, run]
    exact later

theorem exists_of_isWhole {whole : List Char} (h : IsWhole whole) :
    ∃ c digits phase, whole = c :: digits ∧ (phase = zero ∨ phase = NumberPhase.whole) ∧
      next .sign c = some phase ∧ first c = some phase ∧ digits.foldlM next phase = some phase := by
  rcases h with rfl | ⟨some, all, leading⟩
  · exact ⟨'0', [], zero, rfl, .inl rfl, rfl, rfl, rfl⟩
  · obtain ⟨c, digits, rfl⟩ := List.exists_cons_of_ne_nil some
    obtain ⟨digit, others⟩ := List.forall_mem_cons.mp all
    have nonzero : c ≠ '0' := by simpa using leading
    have minus : c ≠ '-' := by
      rintro rfl
      exact absurd digit (by decide)
    refine ⟨c, digits, NumberPhase.whole, rfl, .inr rfl, ?_, ?_, ?_⟩
    · simp [NumberPhase.next, nonzero, digit]
    · simp [first, minus, nonzero, digit]
    · exact foldlM_next_digits (fun c h => by simp [NumberPhase.next, h]) others

theorem not_isDigit_of_isMark {c : Char} (h : isMark c = true) : Decimal.isDigit c = false := by
  rcases (by simpa [isMark] using h : c = 'e' ∨ c = 'E') with rfl | rfl <;> decide

theorem exists_foldlM_of_isNumeral {chars : List Char} (h : IsNumeral chars) :
    ∃ c rest start stop, chars = c :: rest ∧ first c = some start ∧
      rest.foldlM next start = some stop ∧ stop.isEnd = true := by
  obtain ⟨sign, whole, fraction, exponent, signs, wholes, decimals, behind, rfl⟩ := h
  obtain ⟨c, digits, phase, rfl, phases, signed, begins, run⟩ := exists_of_isWhole wholes
  have tail : ∃ stop, (fraction ++ exponent).foldlM next phase = some stop ∧ stop.isEnd = true := by
    rcases phases with rfl | rfl
    · refine foldlM_next_fraction decimals behind rfl rfl fun c mark => ?_
      have point : c ≠ '.' := by
        rintro rfl
        exact absurd mark (by decide)
      simp [NumberPhase.next, point, mark]
    · refine foldlM_next_fraction decimals behind rfl rfl fun c mark => ?_
      have point : c ≠ '.' := by
        rintro rfl
        exact absurd mark (by decide)
      simp [NumberPhase.next, not_isDigit_of_isMark mark, point, mark]
  obtain ⟨stop, later, last⟩ := tail
  have all : (digits ++ (fraction ++ exponent)).foldlM next phase = some stop := by
    rw [List.foldlM_append, run]
    exact later
  rcases signs with rfl | rfl
  · exact ⟨c, digits ++ (fraction ++ exponent), phase, stop, rfl, begins, all, last⟩
  · refine ⟨'-', c :: (digits ++ (fraction ++ exponent)), .sign, stop, rfl, rfl, ?_, last⟩
    rw [List.foldlM_cons, signed]
    exact all

end NumberPhase

theorem hexDigit?_lt {c : Char} {digit : Nat} (h : hexDigit? c = some digit) : digit < 16 := by
  have bounds (low high : Char) (inside : (decide (low ≤ c) && decide (c ≤ high)) = true) :
      low.toNat ≤ c.toNat ∧ c.toNat ≤ high.toNat := by
    rw [Bool.and_eq_true, decide_eq_true_iff, decide_eq_true_iff] at inside
    exact inside
  rw [hexDigit?] at h
  split at h
  · rename_i inside
    have := bounds '0' '9' inside
    cases h
    have : '0'.toNat = 48 := rfl
    have : '9'.toNat = 57 := rfl
    omega
  · split at h
    · rename_i inside
      have := bounds 'a' 'f' inside
      cases h
      have : 'a'.toNat = 97 := rfl
      have : 'f'.toNat = 102 := rfl
      omega
    · split at h
      · rename_i inside
        have := bounds 'A' 'F' inside
        cases h
        have : 'A'.toNat = 65 := rfl
        have : 'F'.toNat = 70 := rfl
        omega
      · cases h

theorem hexValue?_lt {digits : List Char} {code value : Nat} (h : hexValue? code digits = some value) :
    value < (code + 1) * 16 ^ digits.length := by
  induction digits generalizing code with
  | nil =>
    cases h
    simp
  | cons c digits ih =>
    rw [hexValue?, List.foldlM_cons] at h
    obtain ⟨next, step, later⟩ := Option.bind_eq_some_iff.mp h
    obtain ⟨digit, read, rfl⟩ := Option.map_eq_some_iff.mp step
    have small := hexDigit?_lt read
    have bound := ih later
    have grown := Nat.mul_le_mul_right (16 ^ digits.length)
      (show 16 * code + digit + 1 ≤ (code + 1) * 16 by omega)
    rw [List.length_cons, Nat.pow_succ', ← Nat.mul_assoc]
    exact Nat.lt_of_lt_of_le bound grown

theorem Piece.code_lt {code : Nat} {text : List Char} (h : Piece code text) : code < 0x110000 := by
  cases h with
  | plain c =>
    have valid := c.valid
    have code : c.val.toNat = c.toNat := rfl
    simp only [UInt32.isValidChar, Nat.isValidChar] at valid
    omega
  | @short c _ known =>
    rw [escaped?.eq_def] at known
    split at known <;> cases known <;> decide
  | hex four value =>
    have bound := hexValue?_lt value
    rw [four] at bound
    omega

theorem Pieces.code_lt {codes : List Nat} {body : List Char} (h : Pieces codes body) :
    ∀ code ∈ codes, code < 0x110000 := by
  induction h with
  | nil => exact List.forall_mem_nil _
  | cons first later ih => exact List.forall_mem_cons.mpr ⟨first.code_lt, ih⟩

theorem Pieces.append {codes codes' : List Nat} {body body' : List Char} (h : Pieces codes body)
    (h' : Pieces codes' body') : Pieces (codes ++ codes') (body ++ body') := by
  induction h with
  | nil => exact h'
  | cons first later ih =>
    rw [List.cons_append, List.append_assoc]
    exact .cons first ih

theorem Pieces.concat {codes : List Nat} {code : Nat} {body text : List Char} (h : Pieces codes body)
    (last : Piece code text) : Pieces (codes ++ [code]) (body ++ text) := by
  have single := Pieces.cons last .nil
  rw [List.append_nil] at single
  exact h.append single

theorem isSurrogate_toNat (c : Char) : isHighSurrogate c.toNat = false ∧ isLowSurrogate c.toNat = false := by
  have valid := c.valid
  have code : c.val.toNat = c.toNat := rfl
  simp only [UInt32.isValidChar, Nat.isValidChar] at valid
  simp only [isHighSurrogate, isLowSurrogate, Bool.and_eq_false_iff, decide_eq_false_iff_not]
  omega

theorem toNat_ofNat {code : Nat} (bound : code < 0x110000) (outside : code < 0xD800 ∨ 0xDFFF < code) :
    (Char.ofNat code).toNat = code := by
  have valid : code.isValidChar := by
    simp only [Nat.isValidChar]
    omega
  rw [Char.ofNat, dif_pos valid]
  rfl

theorem toNat_ofNat_joinSurrogates {high low : Nat} (first : isHighSurrogate high = true)
    (second : isLowSurrogate low = true) :
    (Char.ofNat (joinSurrogates high low)).toNat = joinSurrogates high low := by
  simp only [isHighSurrogate, isLowSurrogate, Bool.and_eq_true, decide_eq_true_eq] at first second
  have range : 0x10000 ≤ joinSurrogates high low ∧ joinSurrogates high low < 0x110000 := by
    unfold joinSurrogates
    omega
  exact toNat_ofNat range.2 (by omega)

/-- Codes are turned into the characters that they stand for. -/
theorem charsOfCodes_of_encodes {codes : List Nat} {chars : List Char} (h : Encodes codes chars) :
    charsOfCodes codes = some chars := by
  induction h with
  | nil => rfl
  | single c later ih =>
    obtain ⟨high, low⟩ := isSurrogate_toNat c
    rw [charsOfCodes.eq_def]
    simp [high, low, ih]
  | @pair high low _ _ c first second joined later ih =>
    have same : Char.ofNat (joinSurrogates high low) = c := by
      rw [← joined, Char.ofNat_toNat]
    rw [charsOfCodes.eq_def]
    simp [first, second, ih, same]

theorem encodes_of_charsOfCodes {codes : List Nat} (bounds : ∀ code ∈ codes, code < 0x110000)
    {chars : List Char} (h : charsOfCodes codes = some chars) : Encodes codes chars := by
  induction codes using charsOfCodes.induct generalizing chars with
  | case1 =>
    cases h
    exact .nil
  | case2 high first low rest second ih =>
    rw [charsOfCodes, if_pos first] at h
    simp only [second, if_true] at h
    obtain ⟨chars, later, rfl⟩ := Option.map_eq_some_iff.mp h
    obtain ⟨-, -, others⟩ := by simpa only [List.forall_mem_cons] using bounds
    exact .pair _ first second (toNat_ofNat_joinSurrogates first second) (ih others later)
  | case3 high first low rest second =>
    rw [charsOfCodes, if_pos first] at h
    simp [second] at h
  | case4 high first =>
    rw [charsOfCodes, if_pos first] at h
    cases h
  | case5 code rest high low =>
    rw [charsOfCodes.eq_def] at h
    simp [high, low] at h
  | case6 code rest high low ih =>
    rw [charsOfCodes.eq_def] at h
    simp only [high, low] at h
    obtain ⟨chars, later, rfl⟩ := Option.map_eq_some_iff.mp h
    obtain ⟨bound, others⟩ := List.forall_mem_cons.mp bounds
    have same : (Char.ofNat code).toNat = code := by
      simp only [isHighSurrogate, isLowSurrogate, Bool.and_eq_true, decide_eq_true_eq] at high low
      exact toNat_ofNat bound (by omega)
    have coded := Encodes.single (Char.ofNat code) (ih others later)
    rw [same] at coded
    exact coded

/-- What the codes of a string decode to is what the scanner makes of them. -/
theorem decodes_iff {codes : List Nat} (bounds : ∀ code ∈ codes, code < 0x110000) {text : Option String} :
    Decodes codes text ↔ (charsOfCodes codes).map String.ofList = text := by
  cases text with
  | some text =>
    rw [Option.map_eq_some_iff]
    constructor
    · intro coded
      exact ⟨text.toList, charsOfCodes_of_encodes coded, String.ofList_toList⟩
    · rintro ⟨chars, decoded, rfl⟩
      have coded := encodes_of_charsOfCodes bounds decoded
      rw [Decodes, String.toList_ofList]
      exact coded
  | none =>
    rw [Option.map_eq_none_iff, Option.eq_none_iff_forall_ne_some]
    exact forall_congr' fun chars =>
      not_congr ⟨charsOfCodes_of_encodes, encodes_of_charsOfCodes bounds⟩

namespace Spells

theorem spaces_append {spaces : List Char} (blank : AreSpaces spaces) {tokens : List Token}
    {chars : List Char} (h : Spells tokens chars) : Spells tokens (spaces ++ chars) := by
  cases h with
  | nil more => exact .nil (List.forall_mem_append.mpr ⟨blank, more⟩)
  | cons more first later =>
    rw [← List.append_assoc]
    exact .cons (List.forall_mem_append.mpr ⟨blank, more⟩) first later

theorem append {tokens tokens' : List Token} {chars chars' : List Char} (h : Spells tokens chars)
    (h' : Spells tokens' chars') : Spells (tokens ++ tokens') (chars ++ chars') := by
  induction h with
  | nil blank => exact h'.spaces_append blank
  | cons blank first later ih =>
    rw [List.cons_append, List.append_assoc, List.append_assoc]
    exact .cons blank first ih

theorem empty : Spells [] [] := .nil (List.forall_mem_nil _)

theorem single {token : Token} {text : List Char} (h : token.Spells text) : Spells [token] text := by
  have spelled := Spells.cons (List.forall_mem_nil _ : AreSpaces []) h empty
  rw [List.append_nil, List.nil_append] at spelled
  exact spelled

theorem concat {tokens : List Token} {token : Token} {chars text : List Char} (h : Spells tokens chars)
    (last : token.Spells text) : Spells (tokens ++ [token]) (chars ++ text) :=
  h.append (single last)

theorem concat_space {tokens : List Token} {chars : List Char} {c : Char} (h : Spells tokens chars)
    (blank : AreSpaces [c]) : Spells tokens (chars ++ [c]) := by
  have spelled := h.append (.nil blank)
  rw [List.append_nil] at spelled
  exact spelled

theorem of_mem {tokens : List Token} {chars : List Char} (h : Spells tokens chars) {token : Token}
    (mem : token ∈ tokens) : ∃ text, token.Spells text := by
  induction h with
  | nil blank => cases mem
  | cons blank first later ih =>
    rcases List.mem_cons.mp mem with rfl | there
    · exact ⟨_, first⟩
    · exact ih there

end Spells

end Json
end ResumableForth
