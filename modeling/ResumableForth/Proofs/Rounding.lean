import Mathlib.Data.Nat.Dist
import ResumableForth.Proofs.Quantization
import ResumableForth.Value

/-! Both roundings are correct ones: of whole numbers to a quotient, and of binary numbers to a quotient
of units, the nearest one is taken, and on a tie the one that is even. So the text of a floating point
value gives the four decimals nearest to the number that it was made of, the number that it holds is the
binary number nearest to that text, and from there on neither of the two moves any more. -/
namespace ResumableForth

/-- Of all whole numbers this one is nearest to a quotient. Where another one is as near, it is even. -/
structure IsRounded (num den n : Nat) : Prop where
  nearest : ∀ k, Nat.dist (n * den) num ≤ Nat.dist (k * den) num
  even : ∀ k, k ≠ n → Nat.dist (k * den) num = Nat.dist (n * den) num → n % 2 = 0

theorem two_mul_dist_roundQuotient_le (num : Nat) {den : Nat} (pos : 0 < den) :
    2 * Nat.dist (roundQuotient num den * den) num ≤ den := by
  have upper := roundQuotient_upper num den
  have lower := roundQuotient_lower num pos
  rw [Nat.dist]
  omega

theorem roundQuotient_even_of_tie {num den : Nat} (pos : 0 < den)
    (tie : 2 * Nat.dist (roundQuotient num den * den) num = den) :
    roundQuotient num den % 2 = 0 := by
  have split := Nat.div_add_mod num den
  have rest := Nat.mod_lt num pos
  rw [Nat.dist] at tie
  simp only [roundQuotient] at tie ⊢
  split at tie
  · rw [Nat.mul_comm (num / den)] at tie
    omega
  · split at tie
    · rw [Nat.add_mul, Nat.mul_comm (num / den)] at tie
      omega
    · rename_i notBelow notAbove
      rw [if_neg notBelow, if_neg notAbove]
      omega

theorem le_dist_add_dist (num den : Nat) {j k : Nat} (apart : j ≠ k) :
    den ≤ Nat.dist (j * den) num + Nat.dist (k * den) num := by
  rw [Nat.dist, Nat.dist]
  rcases Nat.lt_or_gt_of_ne apart with less | more
  · have step := Nat.mul_le_mul_right den less
    rw [Nat.succ_mul] at step
    omega
  · have step := Nat.mul_le_mul_right den more
    rw [Nat.succ_mul] at step
    omega

theorem isRounded_roundQuotient (num : Nat) {den : Nat} (pos : 0 < den) :
    IsRounded num den (roundQuotient num den) := by
  have half := two_mul_dist_roundQuotient_le num pos
  constructor
  · intro k
    by_cases same : k = roundQuotient num den
    · rw [same]
    · have step := le_dist_add_dist num den same
      omega
  · intro k other equal
    have step := le_dist_add_dist num den other
    exact roundQuotient_even_of_tie pos (by omega)

namespace Binary64

/-- Of all magnitudes that of this rank is nearest to a quotient of units. Where another one is as near,
the rank is even. The rank of infinity stands for the power of two behind the largest finite number. -/
structure IsNearest (num den rank : Nat) : Prop where
  nearest : ∀ other, Nat.dist (units rank * den) num ≤ Nat.dist (units other * den) num
  even : ∀ other, units other ≠ units rank →
    Nat.dist (units other * den) num = Nat.dist (units rank * den) num → rank % 2 = 0

theorem exists_units_eq_mul {shift rank : Nat} (h : shift = 0 ∨ 2 ^ (52 + shift) ≤ units rank) :
    ∃ k, units rank = k * 2 ^ shift := by
  rcases h with rfl | low
  · exact ⟨units rank, by rw [Nat.pow_zero, Nat.mul_one]⟩
  · obtain ⟨above, significand, rfl, fits, normal⟩ := exists_shift_significand rank
    rw [units_shift_add (Nat.le_of_lt fits) normal] at low ⊢
    have upper : significand * 2 ^ above < 2 ^ (53 + above) := by
      rw [Nat.pow_add]
      exact Nat.mul_lt_mul_of_pos_right fits (Nat.two_pow_pos _)
    have exponents := (Nat.pow_lt_pow_iff_right (by decide : 1 < 2)).mp (Nat.lt_of_le_of_lt low upper)
    obtain ⟨more, rfl⟩ := Nat.exists_eq_add_of_le (show shift ≤ above by omega)
    refine ⟨significand * 2 ^ more, ?_⟩
    rw [Nat.mul_assoc, ← Nat.pow_add, Nat.add_comm more]

/-- Magnitudes below the binade of a quotient are farther from it than the first one of the binade. -/
theorem dist_lt_of_units_lt {num den shift rank : Nat} (pos : 0 < den)
    (low : den * 2 ^ (52 + shift) ≤ num) (below : units rank < 2 ^ (52 + shift)) :
    Nat.dist (2 ^ 52 * (den * 2 ^ shift)) num < Nat.dist (units rank * den) num := by
  have first : 2 ^ 52 * (den * 2 ^ shift) = den * 2 ^ (52 + shift) := by
    rw [Nat.mul_left_comm, ← Nat.pow_add]
  have less := Nat.mul_lt_mul_of_pos_right below pos
  rw [Nat.mul_comm (2 ^ _) den] at less
  rw [first, Nat.dist, Nat.dist]
  omega

/-- A magnitude is a whole number of the steps at which a quotient is rounded, or it is farther away than
the rounded one. -/
theorem exists_mul_or_dist_lt (num : Nat) {den : Nat} (pos : 0 < den) (rank : Nat) :
    (∃ k, units rank = k * 2 ^ nearestShift num den) ∨
      Nat.dist (units (nearestRank num den) * den) num < Nat.dist (units rank * den) num := by
  have step : 0 < den * 2 ^ nearestShift num den := Nat.mul_pos pos (Nat.two_pow_pos _)
  rcases nearestShift_eq_zero_or num pos with zero | low
  · exact .inl (exists_units_eq_mul (.inl zero))
  · rcases Nat.lt_or_ge (units rank) (2 ^ (52 + nearestShift num den)) with below | inside
    · right
      have rounded := (isRounded_roundQuotient num step).nearest (2 ^ 52)
      rw [units_nearestRank num pos, Nat.mul_assoc, Nat.mul_comm (2 ^ _) den]
      exact Nat.lt_of_le_of_lt rounded (dist_lt_of_units_lt pos low below)
    · exact .inl (exists_units_eq_mul (.inr inside))

theorem isNearest_nearestRank (num : Nat) {den : Nat} (pos : 0 < den) :
    IsNearest num den (nearestRank num den) := by
  have rounded := isRounded_roundQuotient num
    (Nat.mul_pos pos (Nat.two_pow_pos (nearestShift num den)))
  have scaled (k : Nat) : k * 2 ^ nearestShift num den * den = k * (den * 2 ^ nearestShift num den) := by
    rw [Nat.mul_assoc, Nat.mul_comm (2 ^ _) den]
  constructor
  · intro other
    rcases exists_mul_or_dist_lt num pos other with ⟨k, multiple⟩ | farther
    · rw [units_nearestRank num pos, multiple, scaled, scaled]
      exact rounded.nearest k
    · exact Nat.le_of_lt farther
  · intro other apart equal
    rcases exists_mul_or_dist_lt num pos other with ⟨k, multiple⟩ | farther
    · rw [units_nearestRank num pos, multiple] at apart equal
      rw [scaled, scaled] at equal
      have even := rounded.even k (fun same => apart (by rw [same])) equal
      -- a binade has an even number of magnitudes, so the rank is even when the significand is
      have binade : nearestShift num den * binadeSize = 2 * (nearestShift num den * 2 ^ 51) := by
        rw [binadeSize_eq, Nat.mul_left_comm, ← Nat.pow_succ']
      rw [nearestRank, binade]
      omega
    · exact absurd equal (Nat.ne_of_gt farther)

theorem isRounded_tenThousandths (rank : Nat) :
    IsRounded (units rank * 10000) unitsPerOne (tenThousandths rank) :=
  isRounded_roundQuotient _ unitsPerOne_pos

theorem isNearest_quantizedRank (rank : Nat) :
    IsNearest (tenThousandths rank * unitsPerOne) 10000 (quantizedRank rank) :=
  isNearest_nearestRank _ (by decide)

end Binary64

namespace Value

open Binary64

/-- A floating point value is stable. For every finite number, the text has the count of ten-thousandths
that is nearest to the number, the value holds the number that is nearest to this count, with the sign of
the first one, and that number has the same text, is left alone by quantization, and is what the text is
read as. -/
theorem ofFloat_stable (negative : Bool) (rank : Fin infinityRank) :
    ∃ (count : Nat) (held : Fin infinityRank),
      IsRounded (units rank.val * 10000) unitsPerOne count ∧
      fixed4 (.finite negative rank) = fixedNumeral negative count ∧
      IsNearest (count * unitsPerOne) 10000 held.val ∧
      ofFloat (.finite negative rank) = .float (.finite negative held) ∧
      canonical (.float (.finite negative held)) = fixed4 (.finite negative rank) ∧
      quantize (.finite negative held) = .finite negative held ∧
      ofCanonical? .float (canonical (.float (.finite negative held))) =
        some (.float (.finite negative held)) := by
  have finite : isFinite (.finite negative rank) = true := rfl
  have quantized := quantize_finite negative rank
  have again := quantize_quantize finite
  have text := fixed4_quantize finite
  have read := readFinite?_fixed4 finite
  rw [quantized] at again text read
  refine ⟨tenThousandths rank.val, ⟨quantizedRank rank.val, quantizedRank_lt rank.isLt⟩,
    isRounded_tenThousandths rank.val, rfl, isNearest_quantizedRank rank.val, ?_, text, again, ?_⟩
  · rw [ofFloat, quantized]
  · rw [canonical, text, ofCanonical?, read, Option.map_some, ofFloat, again]

example : (ofFloat (.finite false ⟨0x3FA0000000000000, by decide⟩)).canonical = "0.0312" := by
  decide +kernel

end Value
end ResumableForth
