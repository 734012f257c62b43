import Mathlib.Algebra.Group.Int.Defs
import Mathlib.Algebra.Group.Nat.Defs
import ResumableForth.Number.Decimal

/-! Decimal numerals stand for the numbers they were written for: reading what writing gives is the
identity, on natural numbers, on integers and on the 64-bit integers among them. -/
namespace ResumableForth
namespace Decimal

theorem isDigit_eq (c : Char) : isDigit c = c.isDigit := rfl

theorem isDigit_digitChar {n : Nat} (h : n < 10) : isDigit n.digitChar = true := by
  rw [isDigit_eq, Nat.isDigit_digitChar]
  exact decide_eq_true h

theorem isDigit_of_mem_toDigits {n : Nat} {c : Char} (h : c ∈ Nat.toDigits 10 n) :
    isDigit c = true :=
  Nat.isDigit_of_mem_toDigits (by decide) (by decide) h

theorem value_eq_ofDigitChars (digits : List Char) :
    value digits = Nat.ofDigitChars 10 digits 0 := rfl

@[simp] theorem value_toDigits (n : Nat) : value (Nat.toDigits 10 n) = n := by
  rw [value_eq_ofDigitChars, Nat.ofDigitChars_ten_toDigits]

theorem value_append (front back : List Char) :
    value (front ++ back) = 10 ^ back.length * value front + value back := by
  rw [value_eq_ofDigitChars, Nat.ofDigitChars_append, Nat.ofDigitChars_eq_ofDigitChars_zero]
  rfl

@[simp] theorem natural?_toDigits (n : Nat) : natural? (Nat.toDigits 10 n) = some n := by
  rw [natural?_eq_some Nat.toDigits_ne_nil (fun _ => isDigit_of_mem_toDigits), value_toDigits]

@[simp] theorem toList_numeral (n : Nat) : (numeral n).toList = Nat.toDigits 10 n := by
  simp [numeral]

theorem exists_toDigits_cons {n : Nat} (h : n ≠ 0) :
    ∃ c rest, Nat.toDigits 10 n = c :: rest ∧ c ≠ '0' := by
  induction n using Nat.strongRecOn with
  | ind n ih =>
    by_cases small : n < 10
    · refine ⟨n.digitChar, [], Nat.toDigits_of_lt_base small, ?_⟩
      simpa using h
    · obtain ⟨c, rest, digits, first⟩ := ih (n / 10) (by omega) (by omega)
      refine ⟨c, rest ++ [(n % 10).digitChar], ?_, first⟩
      rw [Nat.toDigits_of_base_le (by decide) (by omega), digits]
      rfl

theorem digitChar_digitValue {c : Char} (h : isDigit c = true) : (digitValue c).digitChar = c := by
  have digits : ∀ n, n < 10 → n.digitChar = Char.ofNat (48 + n) := by decide
  rw [isDigit, Bool.and_eq_true, decide_eq_true_iff, decide_eq_true_iff] at h
  have low : 48 ≤ c.toNat := h.1
  have high : c.toNat ≤ 57 := h.2
  have same : Char.ofNat (48 + (c.toNat - 48)) = c := by
    rw [Nat.add_sub_cancel' low, Char.ofNat_toNat]
  exact (digits (c.toNat - 48) (by omega)).trans same

theorem digitValue_lt {c : Char} (h : isDigit c = true) : digitValue c < 10 := by
  rw [isDigit, Bool.and_eq_true, decide_eq_true_iff, decide_eq_true_iff] at h
  have high : c.toNat ≤ 57 := h.2
  show c.toNat - 48 < 10
  omega

theorem toDigits_foldl {digits : List Char} (all : ∀ c ∈ digits, isDigit c = true) {n : Nat} (pos : 0 < n) :
    Nat.toDigits 10 (digits.foldl (fun total c => 10 * total + digitValue c) n) =
      Nat.toDigits 10 n ++ digits := by
  induction digits generalizing n with
  | nil => rw [List.foldl_nil, List.append_nil]
  | cons c digits ih =>
    obtain ⟨digit, others⟩ := List.forall_mem_cons.mp all
    have small := digitValue_lt digit
    have last : Nat.toDigits 10 n ++ [c] = Nat.toDigits 10 (10 * n + digitValue c) := by
      rw [← Nat.toDigits_append_toDigits (by decide) pos small, Nat.toDigits_of_lt_base small,
        digitChar_digitValue digit]
    rw [List.foldl_cons, ih others (by omega), ← last, List.append_assoc]
    rfl

/-- Digits without a leading zero are the numeral of the number that they stand for. -/
theorem toDigits_value {digits : List Char} (some : digits ≠ []) (all : ∀ c ∈ digits, isDigit c = true)
    (leading : digits.head? ≠ .some '0') : Nat.toDigits 10 (value digits) = digits := by
  obtain ⟨c, digits, rfl⟩ := List.exists_cons_of_ne_nil some
  obtain ⟨digit, others⟩ := List.forall_mem_cons.mp all
  have small := digitValue_lt digit
  have char := digitChar_digitValue digit
  have pos : 0 < digitValue c := by
    apply Nat.pos_of_ne_zero
    intro zero
    rw [zero] at char
    exact leading (congrArg Option.some char.symm)
  calc
    _ = Nat.toDigits 10 (digits.foldl (fun total c => 10 * total + digitValue c) (digitValue c)) := by
      rw [value, List.foldl_cons, Nat.mul_zero, Nat.zero_add]
    _ = c :: digits := by
      rw [toDigits_foldl others pos, Nat.toDigits_of_lt_base small, char]
      rfl

theorem integer?_of_isDigit {c : Char} {rest : List Char} (h : isDigit c = true) :
    integer? (c :: rest) = (natural? (c :: rest)).map fun n => (n : Int) := by
  have minus : c ≠ '-' := by
    rintro rfl
    exact absurd h (by decide)
  have plus : c ≠ '+' := by
    rintro rfl
    exact absurd h (by decide)
  simp [integer?, minus, plus]

theorem integer?_toDigits (n : Nat) : integer? (Nat.toDigits 10 n) = some (n : Int) := by
  have h := natural?_toDigits n
  have digits := fun c => isDigit_of_mem_toDigits (n := n) (c := c)
  cases hd : Nat.toDigits 10 n with
  | nil => exact absurd hd Nat.toDigits_ne_nil
  | cons c rest =>
    rw [hd] at h digits
    rw [integer?_of_isDigit (digits c (by simp)), h]
    rfl

@[simp] theorem integer?_signedNumeral (n : Int) :
    integer? (signedNumeral n).toList = some n := by
  by_cases h : n < 0
  · have hn : -(n.natAbs : Int) = n := by omega
    have signed : (signedNumeral n).toList = '-' :: Nat.toDigits 10 n.natAbs := by
      simp [signedNumeral, h]
    rw [signed, integer?, natural?_toDigits]
    exact congrArg some hn
  · have hn : (n.natAbs : Int) = n := by omega
    rw [signedNumeral, if_neg h, toList_numeral, integer?_toDigits, hn]

@[simp] theorem int64?_toInt (n : Int64) : int64? n.toInt = some n := by
  have low : Int64.minValue.toInt ≤ n.toInt := by
    rw [Int64.toInt_minValue]
    exact n.le_toInt
  have high : n.toInt ≤ Int64.maxValue.toInt := by
    rw [Int64.toInt_maxValue]
    exact Int.le_sub_one_of_lt n.toInt_lt
  rw [int64?, if_pos ⟨low, high⟩, Int64.ofInt_toInt]

theorem int64?_eq_some_iff {n : Int} {d : Int64} : int64? n = some d ↔ d.toInt = n := by
  constructor
  · intro h
    rw [int64?] at h
    split at h
    · rename_i range
      cases h
      rw [Int64.toInt_minValue, Int64.toInt_maxValue] at range
      exact Int64.toInt_ofInt_of_le range.1 (Int.lt_of_le_sub_one range.2)
    · cases h
  · rintro rfl
    exact int64?_toInt d

theorem int64?_eq_none_iff {n : Int} : int64? n = none ↔ ∀ d : Int64, d.toInt ≠ n := by
  rw [Option.eq_none_iff_forall_ne_some]
  exact forall_congr' fun d => not_congr int64?_eq_some_iff

/-- Only the least integer has no opposite. -/
theorem int64?_neg_eq_none_iff (b : Int64) : int64? (-b.toInt) = none ↔ b = Int64.minValue := by
  have low := b.le_toInt
  have high := b.toInt_lt
  rw [← Int64.toInt_inj, Int64.toInt_minValue, int64?, Int64.toInt_minValue, Int64.toInt_maxValue]
  split
  · simp only [reduceCtorEq, false_iff]
    omega
  · simp only [true_iff]
    omega

@[simp] theorem readInt64?_signedNumeral (n : Int64) :
    readInt64? (signedNumeral n.toInt) = some n := by
  simp [readInt64?]

theorem readInt64?_numeral {n : Nat} (small : n < 2 ^ 63) :
    readInt64? (numeral n) = some (Int64.ofNat n) := by
  have low : Int64.minValue.toInt ≤ n := by
    rw [Int64.toInt_minValue]
    omega
  have high : (n : Int) ≤ Int64.maxValue.toInt := by
    rw [Int64.toInt_maxValue]
    omega
  rw [readInt64?, toList_numeral, integer?_toDigits, Option.bind_some, int64?, if_pos ⟨low, high⟩,
    Int64.ofInt_eq_ofNat]

end Decimal
end ResumableForth
