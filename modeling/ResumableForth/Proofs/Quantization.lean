import Mathlib.Data.List.TakeWhile
import ResumableForth.Number.Binary64.Text
import ResumableForth.Proofs.Numeral

/-! Rounding to four decimals is stable. Two grids are involved, that of the ten-thousandths and that
of the binary numbers. Below `2 ^ 39` the binary grid is the finer one: the number nearest to a count
of ten-thousandths is nearer to it than to any other count. From there on it is the coarser one: the
count nearest to a number is nearer to it than to any other number. Either way the second rounding
undoes nothing of the first. -/
namespace ResumableForth

theorem roundQuotient_upper (num den : Nat) :
    2 * (roundQuotient num den * den) ≤ 2 * num + den := by
  have split := Nat.div_add_mod num den
  simp only [roundQuotient]
  split
  · rw [Nat.mul_comm (num / den)]
    omega
  · split
    · rw [Nat.add_mul, Nat.mul_comm (num / den)]
      omega
    · have parity : num / den % 2 * den ≤ 1 * den := Nat.mul_le_mul_right _ (by omega)
      rw [Nat.add_mul, Nat.mul_comm (num / den) den]
      omega

theorem roundQuotient_lower (num : Nat) {den : Nat} (h : 0 < den) :
    2 * num ≤ 2 * (roundQuotient num den * den) + den := by
  have split := Nat.div_add_mod num den
  have rest := Nat.mod_lt num h
  simp only [roundQuotient]
  split
  · rw [Nat.mul_comm (num / den)]
    omega
  · split
    · rw [Nat.add_mul, Nat.mul_comm (num / den)]
      omega
    · rw [Nat.add_mul, Nat.mul_comm (num / den) den]
      omega

theorem roundQuotient_eq {num den k : Nat} (above : 2 * num < 2 * (k * den) + den)
    (below : 2 * (k * den) < 2 * num + den) : roundQuotient num den = k := by
  have pos : 0 < den := by omega
  have upper := roundQuotient_upper num den
  have lower := roundQuotient_lower num pos
  rcases Nat.lt_trichotomy (roundQuotient num den) k with less | same | more
  · have apart := Nat.mul_le_mul_right den less
    rw [Nat.succ_mul] at apart
    omega
  · exact same
  · have apart := Nat.mul_le_mul_right den more
    rw [Nat.succ_mul] at apart
    omega

theorem roundQuotient_mul {den : Nat} (h : 0 < den) (k : Nat) :
    roundQuotient (k * den) den = k :=
  roundQuotient_eq (by omega) (by omega)

theorem le_roundQuotient {num den k : Nat} (pos : 0 < den) (h : k * den ≤ num) :
    k ≤ roundQuotient num den := by
  have floor : k ≤ num / den := (Nat.le_div_iff_mul_le pos).mpr h
  simp only [roundQuotient]
  split
  · exact floor
  · split <;> omega

theorem roundQuotient_le {num den k : Nat} (pos : 0 < den) (h : num ≤ k * den) :
    roundQuotient num den ≤ k := by
  rcases Nat.eq_or_lt_of_le h with same | less
  · exact Nat.le_of_eq (same ▸ roundQuotient_mul pos k)
  · have floor : num / den < k := (Nat.div_lt_iff_lt_mul pos).mpr less
    simp only [roundQuotient]
    split
    · omega
    · split <;> omega

namespace Binary64

theorem binadeSize_pos : 0 < binadeSize := by decide

theorem binadeSize_eq : binadeSize = 2 ^ 52 := rfl

/-- The exponent has a name, so that the power is not evaluated. -/
theorem unitsPerOne_eq {k : Nat} (h : k = 1074) : unitsPerOne = 2 ^ k := by
  rw [unitsPerOne, ← h, Nat.shiftLeft_eq, Nat.one_mul]

theorem two_pow_mul_unitsPerOne {n k : Nat} (h : n + 1074 = k) : 2 ^ n * unitsPerOne = 2 ^ k := by
  obtain ⟨whole, exponent⟩ : ∃ whole, whole = 1074 := ⟨_, rfl⟩
  rw [unitsPerOne_eq exponent, ← Nat.pow_add, exponent, h]

theorem unitsPerOne_pos : 0 < unitsPerOne := by
  obtain ⟨whole, exponent⟩ : ∃ whole, whole = 1074 := ⟨_, rfl⟩
  rw [unitsPerOne_eq exponent]
  exact Nat.two_pow_pos whole

/-- The magnitude of a rank that is put together from a shift and a significand. A significand of
two whole binades stands for the first magnitude of the next one. -/
theorem units_shift_add {shift significand : Nat} (fits : significand ≤ 2 * binadeSize)
    (normal : shift = 0 ∨ binadeSize ≤ significand) :
    units (shift * binadeSize + significand) = significand * 2 ^ shift := by
  have pos := binadeSize_pos
  by_cases small : significand < binadeSize
  · obtain rfl : shift = 0 := by omega
    simp [units, small]
  · have large : ¬ shift * binadeSize + significand < binadeSize := by
      have := Nat.zero_le (shift * binadeSize)
      omega
    rw [units, if_neg large, Nat.shiftLeft_eq]
    rcases Nat.eq_or_lt_of_le fits with top | inside
    · subst top
      rw [← Nat.add_mul, Nat.mul_mod_left, Nat.mul_div_cancel _ pos]
      simp [Nat.pow_succ, Nat.mul_comm, Nat.mul_assoc]
    · obtain ⟨rest, rfl⟩ := Nat.exists_eq_add_of_le (Nat.le_of_not_lt small)
      have less : rest < binadeSize := by omega
      have regroup : shift * binadeSize + (binadeSize + rest) = rest + (shift + 1) * binadeSize := by
        rw [Nat.succ_mul]
        omega
      rw [regroup, Nat.add_mul_mod_self_right, Nat.mod_eq_of_lt less,
        Nat.add_mul_div_right _ _ pos, Nat.div_eq_of_lt less]
      simp

/-- Every rank is put together from a shift and a significand. -/
theorem exists_shift_significand (rank : Nat) :
    ∃ shift significand, rank = shift * binadeSize + significand ∧
      significand < 2 * binadeSize ∧ (shift = 0 ∨ binadeSize ≤ significand) := by
  have pos := binadeSize_pos
  by_cases small : rank < binadeSize
  · exact ⟨0, rank, by simp, by omega, Or.inl rfl⟩
  · have split := Nat.div_add_mod rank binadeSize
    have rest := Nat.mod_lt rank pos
    have binade : 0 < rank / binadeSize := Nat.div_pos (Nat.le_of_not_lt small) pos
    obtain ⟨shift, shifted⟩ := Nat.exists_eq_add_of_lt binade
    refine ⟨shift, binadeSize + rank % binadeSize, ?_, by omega, Or.inr (by omega)⟩
    rw [shifted, Nat.zero_add, Nat.mul_succ, Nat.mul_comm] at split
    omega

def nearestShift (num den : Nat) : Nat := (num / den).log2 - 52

def nearestRank (num den : Nat) : Nat :=
  nearestShift num den * binadeSize + roundQuotient num (den * 2 ^ nearestShift num den)

theorem nearest_eq (negative : Bool) (num den : Nat) :
    nearest negative num den =
      if h : nearestRank num den < infinityRank then .finite negative ⟨nearestRank num den, h⟩
      else .infinite negative := by
  rw [nearest, Nat.shiftLeft_eq]
  rfl

theorem lt_of_nearestShift (num : Nat) {den : Nat} (pos : 0 < den) :
    num < den * 2 ^ (53 + nearestShift num den) := by
  have log : num / den < 2 ^ ((num / den).log2 + 1) := Nat.lt_log2_self
  have exponent : (num / den).log2 + 1 ≤ 53 + nearestShift num den := by
    simp only [nearestShift]
    omega
  have power := Nat.pow_le_pow_right (by decide : 0 < 2) exponent
  rw [Nat.mul_comm]
  exact (Nat.div_lt_iff_lt_mul pos).mp (Nat.lt_of_lt_of_le log power)

theorem nearestShift_eq_zero_or (num : Nat) {den : Nat} (pos : 0 < den) :
    nearestShift num den = 0 ∨ den * 2 ^ (52 + nearestShift num den) ≤ num := by
  by_cases low : (num / den).log2 ≤ 52
  · exact Or.inl (by simp only [nearestShift]; omega)
  · have positive : num / den ≠ 0 := by
      intro zero
      simp [zero] at low
    have exponent : 52 + nearestShift num den = (num / den).log2 := by
      simp only [nearestShift]
      omega
    rw [exponent, Nat.mul_comm]
    exact Or.inr ((Nat.le_div_iff_mul_le pos).mp (Nat.log2_self_le positive))

theorem significand_le (num : Nat) {den : Nat} (pos : 0 < den) :
    roundQuotient num (den * 2 ^ nearestShift num den) ≤ 2 * binadeSize := by
  have less := lt_of_nearestShift num pos
  apply roundQuotient_le (Nat.mul_pos pos (Nat.two_pow_pos _))
  rw [Nat.pow_add, Nat.mul_left_comm] at less
  exact Nat.le_of_lt less

theorem le_significand (num : Nat) {den : Nat} (pos : 0 < den) :
    nearestShift num den = 0 ∨
      binadeSize ≤ roundQuotient num (den * 2 ^ nearestShift num den) := by
  rcases nearestShift_eq_zero_or num pos with zero | large
  · exact Or.inl zero
  · right
    apply le_roundQuotient (Nat.mul_pos pos (Nat.two_pow_pos _))
    rw [Nat.pow_add, Nat.mul_left_comm] at large
    exact large

theorem units_nearestRank (num : Nat) {den : Nat} (pos : 0 < den) :
    units (nearestRank num den) =
      roundQuotient num (den * 2 ^ nearestShift num den) * 2 ^ nearestShift num den :=
  units_shift_add (significand_le num pos) (le_significand num pos)

/-- Up to a power of two, rounding moves a quotient by at most half of the step below that power. -/
theorem units_nearestRank_near {num den shift : Nat} (pos : 0 < den)
    (h : num ≤ den * 2 ^ (53 + shift)) :
    2 * (units (nearestRank num den) * den) ≤ 2 * num + den * 2 ^ shift ∧
      2 * num ≤ 2 * (units (nearestRank num den) * den) + den * 2 ^ shift := by
  have step : 0 < den * 2 ^ nearestShift num den := Nat.mul_pos pos (Nat.two_pow_pos _)
  rw [units_nearestRank num pos, Nat.mul_assoc, Nat.mul_comm (2 ^ _) den]
  rcases Nat.lt_or_ge shift (nearestShift num den) with beyond | within
  · -- only the power of two itself is rounded at a larger shift, and it is not moved at all
    have low := (nearestShift_eq_zero_or num pos).resolve_left (by omega)
    have exponents := Nat.pow_le_pow_right (by decide : 0 < 2)
      (show 53 + shift ≤ 52 + nearestShift num den by omega)
    have same : num = 2 ^ 52 * (den * 2 ^ nearestShift num den) := by
      have upper := Nat.mul_le_mul_left den exponents
      rw [Nat.mul_left_comm, ← Nat.pow_add]
      omega
    generalize den * 2 ^ nearestShift num den = size at step same
    rw [same, roundQuotient_mul step]
    omega
  · have finer := Nat.mul_le_mul_left den (Nat.pow_le_pow_right (by decide : 0 < 2) within)
    have upper := roundQuotient_upper num (den * 2 ^ nearestShift num den)
    have lower := roundQuotient_lower num step
    omega

theorem nearestShift_le {num den shift : Nat} (pos : 0 < den)
    (h : num ≤ den * 2 ^ (53 + shift)) : nearestShift num den ≤ shift + 1 := by
  rcases nearestShift_eq_zero_or num pos with zero | large
  · omega
  · have powers := Nat.le_of_mul_le_mul_left (Nat.le_trans large h) pos
    have exponents := (Nat.pow_le_pow_iff_right (by decide : 1 < 2)).mp powers
    omega

/-- A quotient that lies where a rank of the given shift can lie, and closer than half a step to
that rank's magnitude, is rounded to the rank. -/
theorem nearestRank_eq {num den shift significand : Nat} (pos : 0 < den)
    (low : den * 2 ^ (52 + shift) ≤ num) (high : num < den * 2 ^ (53 + shift))
    (above : 2 * num < 2 * (significand * (den * 2 ^ shift)) + den * 2 ^ shift)
    (below : 2 * (significand * (den * 2 ^ shift)) < 2 * num + den * 2 ^ shift) :
    nearestRank num den = shift * binadeSize + significand := by
  have floor : 2 ^ (52 + shift) ≤ num / den := by
    rw [Nat.le_div_iff_mul_le pos, Nat.mul_comm]
    exact low
  have ceiling : num / den < 2 ^ (52 + shift + 1) := by
    rw [Nat.div_lt_iff_lt_mul pos, Nat.mul_comm, show 52 + shift + 1 = 53 + shift by omega]
    exact high
  have positive : num / den ≠ 0 := by
    have := Nat.two_pow_pos (52 + shift)
    omega
  have log : (num / den).log2 = 52 + shift := (Nat.log2_eq_iff positive).mpr ⟨floor, ceiling⟩
  have shifted : nearestShift num den = shift := by
    rw [nearestShift, log]
    omega
  rw [nearestRank, shifted, roundQuotient_eq above below]

/-- The rank of the number that the four decimals of a rank stand for. -/
def quantizedRank (rank : Nat) : Nat := nearestRank (tenThousandths rank * unitsPerOne) 10000

theorem ten_thousand_mul_lt {shift : Nat} (h : shift = 1060) : 10000 * 2 ^ shift < unitsPerOne := by
  have power := Nat.two_pow_pos shift
  have split := two_pow_mul_unitsPerOne (by omega : 0 + 1074 = 14 + shift)
  have parts := Nat.pow_add 2 14 shift
  omega

theorem unitsPerOne_lt {shift : Nat} (h : 1061 ≤ shift) : unitsPerOne < 10000 * 2 ^ shift := by
  obtain ⟨more, rfl⟩ := Nat.exists_eq_add_of_le h
  have power := Nat.two_pow_pos (1061 + more)
  have split : 2 ^ more * unitsPerOne = 2 ^ 13 * 2 ^ (1061 + more) := by
    rw [← Nat.pow_add]
    exact two_pow_mul_unitsPerOne (by omega)
  have less := Nat.le_mul_of_pos_left unitsPerOne (Nat.two_pow_pos more)
  generalize 2 ^ (1061 + more) = unit at power split
  omega

theorem tenThousandths_le {rank : Nat} (h : units rank ≤ 2 ^ 39 * unitsPerOne) :
    tenThousandths rank ≤ 2 ^ 39 * 10000 := by
  apply roundQuotient_le unitsPerOne_pos
  generalize unitsPerOne = one at h
  omega

theorem scaled_le_of_units_le {rank shift : Nat} (h : units rank ≤ 2 ^ 39 * unitsPerOne)
    (bound : shift = 1060) : tenThousandths rank * unitsPerOne ≤ 10000 * 2 ^ (53 + shift) := by
  have count := Nat.mul_le_mul_right unitsPerOne (tenThousandths_le h)
  have power : 2 ^ (53 + shift) = 2 ^ 39 * unitsPerOne :=
    (two_pow_mul_unitsPerOne (by omega : 39 + 1074 = 53 + shift)).symm
  rw [power]
  generalize tenThousandths rank * unitsPerOne = scaled at count
  generalize unitsPerOne = one at count
  omega

theorem tenThousandths_quantizedRank_of_le {rank : Nat}
    (h : units rank ≤ 2 ^ 39 * unitsPerOne) :
    tenThousandths (quantizedRank rank) = tenThousandths rank := by
  obtain ⟨shift, bound⟩ : ∃ shift, shift = 1060 := ⟨_, rfl⟩
  have near := units_nearestRank_near (by decide : 0 < 10000) (scaled_le_of_units_le h bound)
  have finer := ten_thousand_mul_lt bound
  apply roundQuotient_eq
  · rw [quantizedRank]
    omega
  · rw [quantizedRank]
    omega

theorem quantizedRank_lt_of_le {rank : Nat} (h : units rank ≤ 2 ^ 39 * unitsPerOne) :
    quantizedRank rank < infinityRank := by
  have shift := nearestShift_le (by decide : 0 < 10000) (scaled_le_of_units_le h rfl)
  have significand :=
    significand_le (tenThousandths rank * unitsPerOne) (by decide : 0 < 10000)
  have binades := Nat.mul_le_mul_right binadeSize shift
  have bound : (1060 + 1) * binadeSize + 2 * binadeSize < infinityRank := by decide
  rw [quantizedRank, nearestRank]
  omega

/-- From `2 ^ 39` on every number is the one nearest to its own four decimals. -/
theorem quantizedRank_of_le {rank : Nat} (h : 2 ^ 39 * unitsPerOne ≤ units rank) :
    quantizedRank rank = rank := by
  obtain ⟨shift, significand, rfl, fits, normal⟩ := exists_shift_significand rank
  have magnitude := units_shift_add (Nat.le_of_lt fits) normal
  have shifted : 1061 ≤ shift := by
    have upper : significand * 2 ^ shift < 2 ^ (53 + shift) := by
      rw [Nat.pow_add]
      exact Nat.mul_lt_mul_of_pos_right fits (Nat.two_pow_pos _)
    rw [magnitude, two_pow_mul_unitsPerOne rfl] at h
    have exponents := (Nat.pow_lt_pow_iff_right (by decide : 1 < 2)).mp (Nat.lt_of_le_of_lt h upper)
    omega
  have large : binadeSize ≤ significand := normal.resolve_left (by omega)
  have coarser := unitsPerOne_lt shifted
  have upper := roundQuotient_upper (significand * 2 ^ shift * 10000) unitsPerOne
  have lower := roundQuotient_lower (significand * 2 ^ shift * 10000) unitsPerOne_pos
  have regroup : significand * (10000 * 2 ^ shift) = significand * 2 ^ shift * 10000 := by
    rw [Nat.mul_assoc, Nat.mul_comm 10000]
  rw [quantizedRank, tenThousandths, magnitude]
  apply nearestRank_eq (by decide)
  · have whole : 10000 * 2 ^ (52 + shift) = 10000 * 2 ^ (52 + shift - 1074) * unitsPerOne := by
      rw [Nat.mul_assoc, two_pow_mul_unitsPerOne (by omega : _ = 52 + shift)]
    rw [whole]
    apply Nat.mul_le_mul_right
    apply le_roundQuotient unitsPerOne_pos
    rw [← whole, Nat.pow_add, Nat.mul_comm 10000]
    exact Nat.mul_le_mul_right _ (Nat.mul_le_mul_right _ large)
  · have inside := Nat.mul_le_mul_right (10000 * 2 ^ shift) (Nat.le_of_lt_succ (Nat.lt_succ_of_lt fits))
    have less := Nat.mul_le_mul_right (10000 * 2 ^ shift) (Nat.succ_le_of_lt fits)
    have power : 10000 * 2 ^ (53 + shift) = 2 * binadeSize * (10000 * 2 ^ shift) := by
      rw [Nat.pow_add, Nat.mul_left_comm]
      rfl
    rw [power]
    rw [Nat.succ_mul, regroup] at less
    omega
  · omega
  · omega

theorem tenThousandths_quantizedRank (rank : Nat) :
    tenThousandths (quantizedRank rank) = tenThousandths rank := by
  rcases Nat.le_total (units rank) (2 ^ 39 * unitsPerOne) with small | large
  · exact tenThousandths_quantizedRank_of_le small
  · rw [quantizedRank_of_le large]

theorem quantizedRank_lt {rank : Nat} (h : rank < infinityRank) :
    quantizedRank rank < infinityRank := by
  rcases Nat.le_total (units rank) (2 ^ 39 * unitsPerOne) with small | large
  · exact quantizedRank_lt_of_le small
  · rw [quantizedRank_of_le large]
    exact h

open Decimal

theorem length_fourDigits (n : Nat) : (fourDigits n).length = 4 := rfl

theorem isDigit_of_mem_fourDigits {n : Nat} {c : Char} (h : c ∈ fourDigits n) :
    isDigit c = true := by
  obtain ⟨digit, mem, rfl⟩ := List.mem_map.mp h
  apply isDigit_digitChar
  simp only [List.mem_cons, List.not_mem_nil, or_false] at mem
  omega

theorem value_fourDigits (n : Nat) : value (fourDigits n) = n % 10000 := by
  have digit (k : Nat) : digitValue (k % 10).digitChar = k % 10 :=
    Nat.toNat_digitChar_sub_48_of_lt_ten (by omega)
  simp only [fourDigits, value, List.map_cons, List.map_nil, List.foldl_cons, List.foldl_nil, digit]
  omega

theorem takeWhile_digits {front rest : List Char} {c : Char}
    (digits : ∀ d ∈ front, isDigit d = true) (stop : isDigit c = false) :
    (front ++ c :: rest).takeWhile isDigit = front := by
  rw [List.takeWhile_append_of_pos digits, List.takeWhile_cons_of_neg (by simp [stop])]
  simp

theorem dropWhile_digits {front rest : List Char} {c : Char}
    (digits : ∀ d ∈ front, isDigit d = true) (stop : isDigit c = false) :
    (front ++ c :: rest).dropWhile isDigit = c :: rest := by
  rw [List.dropWhile_append_of_pos digits, List.dropWhile_cons_of_neg (by simp [stop])]

theorem scientific?_fixed (n : Nat) :
    scientific? (Nat.toDigits 10 (n / 10000) ++ '.' :: fourDigits n) = some (n, -4) := by
  have whole := fun c => isDigit_of_mem_toDigits (n := n / 10000) (c := c)
  have decimals := fun c => isDigit_of_mem_fourDigits (n := n) (c := c)
  have point : isDigit '.' = false := by decide
  have count : 10 ^ 4 * (n / 10000) + n % 10000 = n := by omega
  simp only [scientific?, takeWhile_digits whole point, dropWhile_digits whole point, fraction,
    List.takeWhile_eq_self_iff.mpr decimals, List.dropWhile_eq_nil_iff.mpr decimals, exponent?,
    value_append, value_toDigits, value_fourDigits, length_fourDigits, count]
  simp

theorem magnitude?_fixed (negative : Bool) (n : Nat) :
    magnitude? negative (Nat.toDigits 10 (n / 10000) ++ '.' :: fourDigits n) =
      some (ofDecimal negative n (-4)) := by
  rw [magnitude?, scientific?_fixed]

theorem toList_fixedNumeral (negative : Bool) (n : Nat) :
    (fixedNumeral negative n).toList =
      (if negative then ['-'] else []) ++ (Nat.toDigits 10 (n / 10000) ++ '.' :: fourDigits n) := by
  cases negative <;> simp [fixedNumeral]

theorem read?_fixedNumeral (negative : Bool) (n : Nat) :
    read? (fixedNumeral negative n) = some (ofDecimal negative n (-4)) := by
  rw [read?, toList_fixedNumeral, ← magnitude?_fixed]
  cases negative with
  | true => rfl
  | false =>
    cases digits : Nat.toDigits 10 (n / 10000) with
    | nil => exact absurd digits Nat.toDigits_ne_nil
    | cons c rest =>
      have digit : isDigit c = true := isDigit_of_mem_toDigits (n := n / 10000) (by simp [digits])
      have minus : c ≠ '-' := by
        rintro rfl
        exact absurd digit (by decide)
      have plus : c ≠ '+' := by
        rintro rfl
        exact absurd digit (by decide)
      simp [minus, plus]

theorem units_lt {rank : Nat} (h : rank < infinityRank) : units rank < 2 ^ 1024 * unitsPerOne := by
  obtain ⟨shift, significand, rfl, fits, normal⟩ := exists_shift_significand rank
  have shifted : shift ≤ 2045 := by
    rcases normal with zero | large
    · omega
    · have bound : infinityRank = 2047 * binadeSize := rfl
      have total : (shift + 1) * binadeSize < 2047 * binadeSize := by
        rw [Nat.succ_mul]
        omega
      have := Nat.lt_of_mul_lt_mul_right total
      omega
  have less : significand * 2 ^ shift < 2 ^ (53 + shift) := by
    rw [Nat.pow_add]
    exact Nat.mul_lt_mul_of_pos_right fits (Nat.two_pow_pos _)
  obtain ⟨most, exponent⟩ : ∃ most, 1024 + 1074 = most := ⟨_, rfl⟩
  rw [units_shift_add (Nat.le_of_lt fits) normal, two_pow_mul_unitsPerOne exponent]
  exact Nat.lt_of_lt_of_le less (Nat.pow_le_pow_right (by decide) (by omega))

theorem tenThousandths_lt {rank places : Nat} (h : rank < infinityRank) (wide : places = 404) :
    tenThousandths rank < 10 ^ places := by
  have magnitude := units_lt h
  have count : tenThousandths rank ≤ 2 ^ 1024 * 10000 := by
    apply roundQuotient_le unitsPerOne_pos
    generalize 2 ^ 1024 = most at magnitude
    rw [Nat.mul_right_comm]
    exact Nat.mul_le_mul_right _ (Nat.le_of_lt magnitude)
  have short : 2 ^ 1024 * 10000 < 10 ^ places := by
    rw [wide]
    decide +kernel
  exact Nat.lt_of_le_of_lt count short

theorem ofDecimal_tenThousandths (negative : Bool) {n places : Nat} (wide : places = 404)
    (h : n < 10 ^ places) : ofDecimal negative n (-4) = nearest negative (n * unitsPerOne) 10000 := by
  have digits : (Nat.toDigits 10 n).length ≤ places :=
    (Nat.length_toDigits_le_iff (by decide) (by omega)).mpr h
  rw [ofDecimal]
  by_cases zero : n = 0
  · simp only [zero, Nat.zero_mul]
    rfl
  · rw [if_neg zero, if_neg (by omega), if_neg (by omega)]
    simp

theorem read?_fixed4_finite (negative : Bool) (rank : Fin infinityRank) :
    read? (fixed4 (.finite negative rank)) =
      some (.finite negative ⟨quantizedRank rank.val, quantizedRank_lt rank.isLt⟩) := by
  obtain ⟨places, wide⟩ : ∃ places, places = 404 := ⟨_, rfl⟩
  rw [fixed4, read?_fixedNumeral,
    ofDecimal_tenThousandths negative wide (tenThousandths_lt rank.isLt wide), nearest_eq]
  exact congrArg some (dif_pos (quantizedRank_lt rank.isLt))

theorem quantize_finite (negative : Bool) (rank : Fin infinityRank) :
    quantize (.finite negative rank) =
      .finite negative ⟨quantizedRank rank.val, quantizedRank_lt rank.isLt⟩ := by
  rw [quantize, read?_fixed4_finite]
  rfl

theorem isFinite_iff (x : Binary64) :
    x.isFinite = true ↔ ∃ negative rank, x = .finite negative rank := by
  cases x <;> simp [isFinite]

theorem isFinite_quantize {x : Binary64} (h : x.isFinite = true) : x.quantize.isFinite = true := by
  obtain ⟨negative, rank, rfl⟩ := (isFinite_iff x).mp h
  rw [quantize_finite]
  rfl

/-- The text of the stored number is the text of the number it was made from. -/
theorem fixed4_quantize {x : Binary64} (h : x.isFinite = true) : x.quantize.fixed4 = x.fixed4 := by
  obtain ⟨negative, rank, rfl⟩ := (isFinite_iff x).mp h
  rw [quantize_finite]
  simp only [fixed4, tenThousandths_quantizedRank]

theorem readFinite?_fixed4 {x : Binary64} (h : x.isFinite = true) :
    readFinite? x.fixed4 = some x.quantize := by
  obtain ⟨negative, rank, rfl⟩ := (isFinite_iff x).mp h
  rw [readFinite?, read?_fixed4_finite, quantize_finite]
  rfl

theorem quantize_quantize {x : Binary64} (h : x.isFinite = true) :
    x.quantize.quantize = x.quantize := by
  have first := readFinite?_fixed4 h
  have second := readFinite?_fixed4 (isFinite_quantize h)
  rw [fixed4_quantize h, first] at second
  exact (Option.some.inj second).symm

end Binary64
end ResumableForth
