import Mathlib.Algebra.Order.Ring.Nat
import RequestFlow.Decimal.Binary64

/-!
# Rounding integers

The binary64 numbers about an integer are the integers with at most 53 significant
bits.  Main statement: the numbers that stand for two integers have the same value
exactly if the nearest such integer is the same for both, where of two equally
near ones it is the even one.
-/

namespace RequestFlow.Decimal

/-! ## The nearest number -/

/-- An integer has at most so many significant bits. -/
def HasBits (bits : Nat) (value : Int) : Prop :=
  ∃ significand exponent,
    value.natAbs = significand * twoTo exponent ∧ significand < twoTo bits

/-- The nearest integer with 53 significant bits, and of two equally near ones the
one whose last bit is not used. -/
structure Nearest (value rounded : Int) : Prop where
  fits : HasBits 53 rounded
  least :
    ∀ other, HasBits 53 other → (value - rounded).natAbs ≤ (value - other).natAbs
  even : ∀ other, HasBits 53 other → other ≠ rounded →
    (value - other).natAbs = (value - rounded).natAbs → HasBits 52 rounded

/-- The distance between the integers with 53 significant bits about a number. -/
def spacing (value : Nat) : Nat :=
  twoTo (value.log2 - 52)

/-- The number rounded to a multiple of the distance. -/
def nearest (value : Nat) : Nat :=
  Binary64.roundDiv value (spacing value) * spacing value

theorem spacing_pos (value : Nat) : 0 < spacing value :=
  twoTo_pos _

theorem twoTo_add (first second : Nat) :
    twoTo (first + second) = twoTo first * twoTo second :=
  Nat.pow_add 2 first second

/-- A number has 53 bits in front of the distance, unless the distance is one. -/
theorem spacing_bounds (value : Nat) :
    value < twoTo 53 * spacing value ∧
      (spacing value = 1 ∨
        (2 ≤ spacing value ∧ twoTo 52 * spacing value ≤ value)) := by
  have above : value < twoTo (value.log2 + 1) := Nat.lt_log2_self
  by_cases small : value.log2 ≤ 52
  · have one : spacing value = 1 := by
      rw [spacing, Nat.sub_eq_zero_of_le small, twoTo_zero]
    refine ⟨?_, .inl one⟩
    rw [one, Nat.mul_one]
    exact Nat.lt_of_lt_of_le above (Nat.pow_le_pow_right (by decide) (by omega))
  · have nonzero : value ≠ 0 := by
      rintro rfl
      exact small (by decide)
    have below : twoTo value.log2 ≤ value := Nat.log2_self_le nonzero
    refine ⟨?_, .inr ⟨?_, ?_⟩⟩
    · rw [spacing, ← twoTo_add]
      rwa [show 53 + (value.log2 - 52) = value.log2 + 1 by omega]
    · rw [spacing, show value.log2 - 52 = value.log2 - 53 + 1 by omega, twoTo_succ]
      have := twoTo_pos (value.log2 - 53)
      omega
    · rw [spacing, ← twoTo_add]
      rwa [show 52 + (value.log2 - 52) = value.log2 by omega]

/-! ## Rounded quotients -/

section Quotients

variable {value divisor : Nat}

/-- Division rounds down below a half and up above it, and at a half to the even
side. -/
theorem roundDiv_cases (value divisor : Nat) :
    (Binary64.roundDiv value divisor = value / divisor ∧
        2 * (value % divisor) ≤ divisor ∧
        (2 * (value % divisor) = divisor → value / divisor % 2 = 0)) ∨
      (Binary64.roundDiv value divisor = value / divisor + 1 ∧
        divisor ≤ 2 * (value % divisor) ∧
        (2 * (value % divisor) = divisor → (value / divisor + 1) % 2 = 0)) := by
  simp only [Binary64.roundDiv, beq_iff_eq]
  split
  · exact .inl ⟨rfl, by omega, by omega⟩
  · split
    · exact .inr ⟨rfl, by omega, by omega⟩
    · split
      · exact .inl ⟨rfl, by omega, by omega⟩
      · exact .inr ⟨rfl, by omega, by omega⟩

/-- So no multiple of the divisor is nearer. -/
theorem roundDiv_nearest (value divisor multiple : Nat) (positive : 0 < divisor) :
    ((value : Int) - (Binary64.roundDiv value divisor * divisor : Nat)).natAbs ≤
      ((value : Int) - (multiple * divisor : Nat)).natAbs := by
  have whole := Nat.div_add_mod' value divisor
  have part := Nat.mod_lt value positive
  have sides : multiple * divisor ≤ value / divisor * divisor ∨
      value / divisor * divisor + divisor ≤ multiple * divisor := by
    rcases Nat.lt_or_ge (value / divisor) multiple with more | less
    · exact .inr (Nat.succ_mul _ _ ▸ Nat.mul_le_mul_right divisor more)
    · exact .inl (Nat.mul_le_mul_right divisor less)
  rcases roundDiv_cases value divisor with ⟨down, half, -⟩ | ⟨up, half, -⟩
  · rw [down]
    omega
  · rw [up, Nat.succ_mul]
    omega

/-- Another multiple is as near only if it is next to the rounded one, and that is
even. -/
theorem roundDiv_tie {multiple : Nat} (positive : 0 < divisor)
    (other : multiple ≠ Binary64.roundDiv value divisor)
    (near : ((value : Int) - (multiple * divisor : Nat)).natAbs =
      ((value : Int) - (Binary64.roundDiv value divisor * divisor : Nat)).natAbs) :
    Binary64.roundDiv value divisor % 2 = 0 ∧
      (multiple + 1 = Binary64.roundDiv value divisor ∨
        multiple = Binary64.roundDiv value divisor + 1) := by
  have whole := Nat.div_add_mod' value divisor
  have part := Nat.mod_lt value positive
  have next :
      (value / divisor + 1) * divisor = value / divisor * divisor + divisor :=
    Nat.succ_mul _ _
  have sides : multiple * divisor + divisor ≤ value / divisor * divisor ∨
      multiple = value / divisor ∨ multiple = value / divisor + 1 ∨
        value / divisor * divisor + 2 * divisor ≤ multiple * divisor := by
    rcases Nat.lt_or_ge multiple (value / divisor) with less | more
    · exact .inl (Nat.succ_mul _ _ ▸ Nat.mul_le_mul_right divisor less)
    · rcases Nat.lt_or_ge (value / divisor + 1) multiple with beyond | within
      · refine .inr (.inr (.inr ?_))
        rw [← Nat.add_mul]
        exact Nat.mul_le_mul_right divisor beyond
      · omega
  rcases roundDiv_cases value divisor with ⟨down, half, even⟩ | ⟨up, half, even⟩
  · rw [down] at other near ⊢
    rcases sides with below | rfl | rfl | beyond <;> omega
  · rw [up, next] at near
    rw [up] at other ⊢
    rcases sides with below | rfl | rfl | beyond <;> omega

end Quotients

/-! ## Integers -/

section Integers

variable {value other : Nat}

/-- An integer with 53 significant bits is a multiple of the distance, or below
all that are about the number. -/
theorem multiple_or_lt (fits : HasBits 53 other) (value : Nat) :
    (∃ multiple, other = multiple * spacing value) ∨
      (other < twoTo 52 * spacing value ∧ twoTo 52 * spacing value ≤ value) := by
  rcases (spacing_bounds value).2 with one | ⟨-, large⟩
  · exact .inl ⟨other, by rw [one, Nat.mul_one]⟩
  · rcases fits with ⟨significand, exponent, same, small⟩
    have same : other = significand * twoTo exponent := same
    rcases Nat.lt_or_ge exponent (value.log2 - 52) with low | high
    · refine .inr ⟨?_, large⟩
      calc other = significand * twoTo exponent := same
        _ < twoTo 53 * twoTo exponent :=
          Nat.mul_lt_mul_of_pos_right small (twoTo_pos exponent)
        _ = twoTo 52 * twoTo (exponent + 1) := by
          rw [← twoTo_add, ← twoTo_add,
            show 53 + exponent = 52 + (exponent + 1) by omega]
        _ ≤ twoTo 52 * spacing value :=
          Nat.mul_le_mul_left _ (Nat.pow_le_pow_right (by decide) low)
    · refine .inl ⟨significand * twoTo (exponent - (value.log2 - 52)), ?_⟩
      rw [same, spacing, Nat.mul_assoc, ← twoTo_add, Nat.sub_add_cancel high]

/-- A rounded value has at most one bit more than a significand. -/
theorem multiple_le (value : Nat) :
    Binary64.roundDiv value (spacing value) ≤ twoTo 53 := by
  have below : value / spacing value < twoTo 53 :=
    (Nat.div_lt_iff_lt_mul (spacing_pos value)).mpr (spacing_bounds value).1
  rcases roundDiv_cases value (spacing value) with ⟨down, -, -⟩ | ⟨up, -, -⟩ <;>
    omega

/-- A multiple of a power of two has the bits of its factor. -/
theorem hasBits_mul {bits factor : Nat} (some : 0 < bits)
    (within : factor ≤ twoTo bits) (exponent : Nat) :
    HasBits bits (factor * twoTo exponent : Nat) := by
  rcases Nat.lt_or_eq_of_le within with less | rfl
  · exact ⟨factor, exponent, rfl, less⟩
  · exact ⟨1, bits + exponent, by rw [Nat.one_mul, twoTo_add]; rfl,
      Nat.one_lt_two_pow (Nat.ne_of_gt some)⟩

/-- Nothing that fits in 53 bits is nearer to a value than its rounding. -/
theorem nearest_least (value : Nat) {other : Int} (fits : HasBits 53 other) :
    ((value : Int) - nearest value).natAbs ≤ ((value : Int) - other).natAbs := by
  have near (multiple : Nat) : ((value : Int) - nearest value).natAbs ≤
      ((value : Int) - (multiple * spacing value : Nat)).natAbs :=
    roundDiv_nearest value (spacing value) multiple (spacing_pos value)
  rcases lt_or_ge other 0 with negative | natural
  · have zero := near 0
    rw [Nat.zero_mul] at zero
    omega
  · lift other to Nat using natural
    rcases multiple_or_lt fits value with ⟨multiple, rfl⟩ | ⟨low, large⟩
    · exact near multiple
    · have first := near (twoTo 52)
      omega

/-- Another integer with 53 significant bits is as near only next to an even
multiple of the distance. -/
theorem multiple_of_tie {other : Int} (fits : HasBits 53 other)
    (unlike : other ≠ nearest value)
    (near :
      ((value : Int) - other).natAbs = ((value : Int) - nearest value).natAbs) :
    Binary64.roundDiv value (spacing value) % 2 = 0 ∧
      ∃ multiple, other = (multiple * spacing value : Nat) ∧
        (multiple + 1 = Binary64.roundDiv value (spacing value) ∨
          multiple = Binary64.roundDiv value (spacing value) + 1) := by
  have least (multiple : Nat) : ((value : Int) - nearest value).natAbs ≤
      ((value : Int) - (multiple * spacing value : Nat)).natAbs :=
    roundDiv_nearest value (spacing value) multiple (spacing_pos value)
  rcases lt_or_ge other 0 with negative | natural
  · have zero := least 0
    rw [Nat.zero_mul] at zero
    omega
  · lift other to Nat using natural
    rcases multiple_or_lt fits value with ⟨multiple, rfl⟩ | ⟨low, large⟩
    · have differs : multiple ≠ Binary64.roundDiv value (spacing value) := by
        rintro rfl
        exact unlike rfl
      rcases roundDiv_tie (spacing_pos value) differs near with ⟨even, next⟩
      exact ⟨even, multiple, rfl, next⟩
    · have first := least (twoTo 52)
      omega

theorem nearest_nearest (value : Nat) : Nearest value (nearest value) := by
  refine ⟨hasBits_mul (by decide) (multiple_le value) _,
    fun _ => nearest_least value, ?_⟩
  intro other fits unlike near
  rcases (multiple_of_tie fits unlike near).1 with even
  have half : Binary64.roundDiv value (spacing value) =
      Binary64.roundDiv value (spacing value) / 2 * 2 := by omega
  have within : Binary64.roundDiv value (spacing value) / 2 ≤ twoTo 52 := by
    have bound := multiple_le value
    rw [twoTo_succ] at bound
    omega
  have whole : nearest value = Binary64.roundDiv value (spacing value) / 2 *
      twoTo (value.log2 - 52 + 1) := by
    calc
      _ =
        Binary64.roundDiv value (spacing value) / 2 * 2 *
          twoTo (value.log2 - 52) := by
        rw [← half]
        rfl
      _ = _ := by rw [Nat.mul_assoc, Nat.mul_comm 2, twoTo_succ]
  rw [whole]
  exact hasBits_mul (by decide) within _

/-- An odd factor of a power of two has all bits of the product. -/
theorem lt_of_hasBits_odd {bits factor exponent : Nat} (odd : factor % 2 = 1)
    (fits : HasBits bits (factor * twoTo exponent : Nat)) :
    factor < twoTo bits := by
  rcases fits with ⟨significand, other, same, small⟩
  have same : factor * twoTo exponent = significand * twoTo other := same
  rcases Nat.lt_or_ge exponent other with less | more
  · have even : factor = significand * twoTo (other - exponent - 1) * 2 := by
      apply Nat.eq_of_mul_eq_mul_right (twoTo_pos exponent)
      rw [same, Nat.mul_assoc significand, ← twoTo_succ, Nat.mul_assoc,
        ← twoTo_add, show other - exponent - 1 + 1 + exponent = other by omega]
    omega
  · have divided : significand = factor * twoTo (exponent - other) := by
      apply Nat.eq_of_mul_eq_mul_right (twoTo_pos other)
      rw [← same, Nat.mul_assoc, ← twoTo_add, Nat.sub_add_cancel more]
    exact Nat.lt_of_le_of_lt (Nat.le_mul_of_pos_right factor (twoTo_pos _))
      (divided ▸ small)

/-- There is one nearest number. -/
theorem Nearest.eq_nearest {rounded : Int} (near : Nearest value rounded) :
    rounded = nearest value := by
  by_contra unlike
  have computed := nearest_nearest value
  have equal :
      ((value : Int) - rounded).natAbs = ((value : Int) - nearest value).natAbs :=
    Nat.le_antisymm (near.least _ computed.fits) (computed.least _ near.fits)
  rcases multiple_of_tie near.fits unlike equal with ⟨even, multiple, rfl, next⟩
  have odd : multiple % 2 = 1 := by omega
  have small : multiple < twoTo 52 :=
    lt_of_hasBits_odd odd (near.even _ computed.fits (Ne.symm unlike) equal.symm)
  have other :
      nearest value = Binary64.roundDiv value (spacing value) * spacing value :=
    rfl
  generalize Binary64.roundDiv value (spacing value) = rounded at *
  rcases (spacing_bounds value).2 with one | ⟨-, large⟩
  · rw [one, Nat.mul_one] at other equal
    omega
  · -- Both are at most the number, so that they are not equally near.
    have first : multiple * spacing value ≤ value :=
      Nat.le_trans (Nat.mul_le_mul_right _ (Nat.le_of_lt small)) large
    have second : rounded * spacing value ≤ value :=
      Nat.le_trans (Nat.mul_le_mul_right _ (by omega)) large
    have same : multiple * spacing value = rounded * spacing value := by omega
    have := Nat.eq_of_mul_eq_mul_right (spacing_pos value) same
    omega

end Integers

/-! ## Signs -/

/-- The nearest integer with 53 significant bits, with the sign of the value. -/
def nearestInt (value : Int) : Int :=
  if value < 0 then -(nearest value.natAbs : Int) else nearest value.natAbs

theorem hasBits_neg {bits : Nat} {value : Int} :
    HasBits bits (-value) ↔ HasBits bits value := by
  simp only [HasBits, Int.natAbs_neg]

theorem Nearest.neg {value rounded : Int} (near : Nearest value rounded) :
    Nearest (-value) (-rounded) := by
  have distance (other : Int) :
      (-value - other).natAbs = (value - -other).natAbs := by
    omega
  refine ⟨hasBits_neg.mpr near.fits, ?_, ?_⟩
  · intro other fits
    rw [distance, distance, Int.neg_neg]
    exact near.least (-other) (hasBits_neg.mpr fits)
  · intro other fits unlike equal
    rw [distance, distance, Int.neg_neg] at equal
    exact hasBits_neg.mpr
      (near.even (-other) (hasBits_neg.mpr fits) (by omega) equal)

/-- There is just one nearest value, ties to even included. -/
theorem nearest_iff {value rounded : Int} :
    Nearest value rounded ↔ rounded = nearestInt value := by
  have natural (number : Nat) (rounded : Int) :
      Nearest number rounded ↔ rounded = nearest number :=
    ⟨Nearest.eq_nearest, fun same => same ▸ nearest_nearest number⟩
  rw [nearestInt]
  split
  · next negative =>
      obtain ⟨number, rfl⟩ : ∃ number : Nat, value = -(number : Int) :=
        ⟨value.natAbs, by omega⟩
      have turned :
          Nearest (-(number : Int)) rounded ↔ Nearest number (-rounded) :=
        ⟨fun near => by simpa using near.neg, fun near => by simpa using near.neg⟩
      rw [turned, natural, Int.natAbs_neg, Int.natAbs_natCast]
      omega
  · next natural' =>
      obtain ⟨number, rfl⟩ : ∃ number : Nat, value = number :=
        ⟨value.natAbs, by omega⟩
      exact natural number rounded

/-- Two integers have the same nearest number. -/
def Alike (left right : Int) : Prop :=
  ∃ rounded, Nearest left rounded ∧ Nearest right rounded

/-- Integers become alike exactly if they are rounded to the same value. -/
theorem alike_iff {left right : Int} :
    Alike left right ↔ nearestInt left = nearestInt right := by
  simp only [Alike, nearest_iff]
  exact ⟨fun ⟨rounded, first, second⟩ => first.symm.trans second,
    fun same => ⟨_, rfl, same⟩⟩

theorem Nearest.eq_of_fits {value rounded : Int} (near : Nearest value rounded)
    (fits : HasBits 53 value) : rounded = value := by
  have distance := near.least value fits
  omega

/-- Up to 2^53 the nearest number is that of no other integer. -/
theorem alike_iff_eq {left right : Int} (small : left.natAbs < twoTo 53) :
    Alike left right ↔ left = right := by
  have exact {value : Int} (small : value.natAbs < twoTo 53) : HasBits 53 value :=
    ⟨value.natAbs, 0, (Nat.mul_one _).symm, small⟩
  constructor
  · rintro ⟨rounded, first, second⟩
    rcases first.eq_of_fits (exact small) with rfl
    by_cases within : right.natAbs < twoTo 53
    · exact second.eq_of_fits (exact within)
    · -- The power itself is nearer to what is beyond it.
      have power : HasBits 53 (twoTo 53 : Nat) := ⟨1, 53, rfl, by decide⟩
      have above := second.least _ power
      have below := second.least _ (hasBits_neg.mpr power)
      omega
  · rintro rfl
    exact ⟨nearestInt left, nearest_iff.mpr rfl, nearest_iff.mpr rfl⟩

/-! ## Binary64 numbers of integers -/

namespace Binary64

/-- A number is scaled to one with 53 bits in front of the point. -/
theorem scale_natural (value : Nat) :
    scale value 1 ((value.log2 : Int) - 52) =
      (value * twoTo (52 - value.log2), twoTo (value.log2 - 52)) := by
  rw [scale]
  split
  · have none : 52 - value.log2 = 0 := by omega
    have room : ((value.log2 : Int) - 52).toNat = value.log2 - 52 := by omega
    rw [none, room, twoTo_zero, Nat.mul_one, Nat.one_mul]
  · have none : value.log2 - 52 = 0 := by omega
    have room : (-((value.log2 : Int) - 52)).toNat = 52 - value.log2 := by omega
    rw [none, room, twoTo_zero]

/-- Scaled to 53 bits a value has its first bit at the front. -/
theorem scaled_bounds {value : Nat} (nonzero : value ≠ 0) :
    twoTo 52 * twoTo (value.log2 - 52) ≤ value * twoTo (52 - value.log2) ∧
      value * twoTo (52 - value.log2) < twoTo 53 * twoTo (value.log2 - 52) := by
  have below : twoTo value.log2 ≤ value := Nat.log2_self_le nonzero
  have above : value < twoTo (value.log2 + 1) := Nat.lt_log2_self
  have places (more : Nat) : twoTo (52 + more) * twoTo (value.log2 - 52) =
      twoTo (value.log2 + more) * twoTo (52 - value.log2) := by
    rw [← twoTo_add, ← twoTo_add,
      show 52 + more + (value.log2 - 52) = value.log2 + more + (52 - value.log2) by
        omega]
  constructor
  · rw [places 0]
    exact Nat.mul_le_mul_right _ below
  · rw [places 1]
    exact Nat.mul_lt_mul_of_pos_right above (twoTo_pos _)

theorem exponentFor_natural {value : Nat} (nonzero : value ≠ 0) :
    exponentFor value 1 = (value.log2 : Int) - 52 := by
  have one : Nat.log2 1 = 0 := rfl
  have enough :
      ¬ value * twoTo (52 - value.log2) < twoTo (value.log2 - 52) * twoTo 52 :=
    Nat.not_lt.mpr (Nat.mul_comm _ _ ▸ (scaled_bounds nonzero).1)
  simp only [exponentFor, one, Int.natCast_zero, Int.sub_zero, scale_natural,
    enough, if_false, leastExponent]
  omega

/-- Division by one rounds nothing. -/
theorem roundDiv_one (value : Nat) : roundDiv value 1 = value := by
  rcases roundDiv_cases value 1 with ⟨down, -, -⟩ | ⟨-, half, -⟩
  · rw [down, Nat.div_one]
  · omega

/-- The rounded significand times the power that was taken out is the nearest
number. -/
theorem roundDiv_scaled (value : Nat) :
    roundDiv (value * twoTo (52 - value.log2)) (twoTo (value.log2 - 52)) *
        twoTo value.log2 = nearest value * twoTo 52 := by
  rw [nearest, spacing]
  rcases Nat.lt_or_ge value.log2 52 with small | large
  · have none : value.log2 - 52 = 0 := by omega
    rw [none, twoTo_zero, roundDiv_one, roundDiv_one, Nat.mul_assoc, ← twoTo_add,
      Nat.sub_add_cancel (Nat.le_of_lt small), Nat.mul_one]
  · have none : 52 - value.log2 = 0 := by omega
    rw [none, twoTo_zero, Nat.mul_one, Nat.mul_assoc, ← twoTo_add,
      Nat.sub_add_cancel large]

/-- The significand and the exponent of the number that stands for a natural
number. -/
theorem ofRatio?_natural {value : Nat} (nonzero : value ≠ 0)
    (small : value < twoTo 64) (negative : Bool) :
    ∃ significand exponent : Nat,
      ofRatio? negative value 1 =
          some ⟨negative, significand, (exponent : Int) - 52⟩ ∧
        twoTo 52 ≤ significand ∧ significand < twoTo 53 ∧
        significand * twoTo exponent = nearest value * twoTo 52 := by
  have bounds := scaled_bounds nonzero
  have product := roundDiv_scaled value
  have range : value.log2 < 64 := (Nat.log2_lt nonzero).mpr small
  have positive := twoTo_pos (value.log2 - 52)
  have enough :
      twoTo 52 ≤ value * twoTo (52 - value.log2) / twoTo (value.log2 - 52) :=
    (Nat.le_div_iff_mul_le positive).mpr bounds.1
  have below :
      value * twoTo (52 - value.log2) / twoTo (value.log2 - 52) < twoTo 53 :=
    (Nat.div_lt_iff_lt_mul positive).mpr bounds.2
  have rounded :=
    roundDiv_cases (value * twoTo (52 - value.log2)) (twoTo (value.log2 - 52))
  have read : ofRatio? negative value 1 =
      let significand :=
        roundDiv (value * twoTo (52 - value.log2)) (twoTo (value.log2 - 52))
      let number : Binary64 :=
        if significand == twoTo 53 then
          ⟨negative, twoTo 52, (value.log2 : Int) - 52 + 1⟩
        else ⟨negative, significand, (value.log2 : Int) - 52⟩
      if greatestExponent < number.exponent then none else some number := by
    simp only [ofRatio?, beq_iff_eq, nonzero, if_false,
      exponentFor_natural nonzero, scale_natural]
  rw [read]
  generalize roundDiv (value * twoTo (52 - value.log2)) (twoTo (value.log2 - 52)) =
    significand at *
  dsimp only
  by_cases carry : significand = twoTo 53
  · refine ⟨twoTo 52, value.log2 + 1, ?_, Nat.le_refl _, by decide, ?_⟩
    · rw [if_pos (beq_iff_eq.mpr carry), if_neg]
      · congr 2
        omega
      · rw [greatestExponent]
        dsimp only
        omega
    · rw [← product, carry, ← twoTo_add, ← twoTo_add]
      congr 1
      omega
  · refine ⟨significand, value.log2, ?_, ?_, ?_, product⟩
    · rw [if_neg (mt beq_iff_eq.mp carry), if_neg]
      rw [greatestExponent]
      dsimp only
      omega
    · rcases rounded with ⟨down, -, -⟩ | ⟨up, -, -⟩ <;> omega
    · rcases rounded with ⟨down, -, -⟩ | ⟨up, -, -⟩ <;> omega

/-- Of two products that agree, the one with a full significand has the smaller
power. -/
theorem exponent_le {first second low high : Nat} (large : twoTo 52 ≤ second)
    (small : first < twoTo 53) (same : first * twoTo low = second * twoTo high) :
    high ≤ low := by
  by_contra above
  have less : first * twoTo low < second * twoTo high :=
    calc first * twoTo low < twoTo 53 * twoTo low :=
      Nat.mul_lt_mul_of_pos_right small (twoTo_pos low)
      _ = twoTo 52 * twoTo (low + 1) := by
        rw [← twoTo_add, ← twoTo_add, show 53 + low = 52 + (low + 1) by omega]
      _ ≤ twoTo 52 * twoTo high :=
        Nat.mul_le_mul_left _ (Nat.pow_le_pow_right (by decide) (by omega))
      _ ≤ second * twoTo high := Nat.mul_le_mul_right _ large
  exact Nat.ne_of_lt less same

/-- A significand of 53 bits and its exponent are told by their product. -/
theorem eq_of_product {first second low high : Nat}
    (bounds : twoTo 52 ≤ first ∧ first < twoTo 53)
    (others : twoTo 52 ≤ second ∧ second < twoTo 53)
    (same : first * twoTo low = second * twoTo high) :
    first = second ∧ low = high := by
  have exponents : low = high :=
    Nat.le_antisymm (exponent_le bounds.1 others.2 same.symm)
      (exponent_le others.1 bounds.2 same)
  subst exponents
  exact ⟨Nat.eq_of_mul_eq_mul_right (twoTo_pos low) same, rfl⟩

/-- The double of an integer other than zero is normal, has its sign, and stands
for its nearest value. -/
theorem ofInt_nonzero {value : Int} (nonzero : value ≠ 0)
    (small : value.natAbs < twoTo 64) :
    ∃ significand exponent : Nat,
      ofInt value = ⟨decide (value < 0), significand, (exponent : Int) - 52⟩ ∧
        (twoTo 52 ≤ significand ∧ significand < twoTo 53) ∧
        significand * twoTo exponent = (nearestInt value).natAbs * twoTo 52 ∧
        (nearestInt value < 0 ↔ value < 0) ∧ nearestInt value ≠ 0 := by
  rcases ofRatio?_natural (Int.natAbs_ne_zero.mpr nonzero) small
      (decide (value < 0)) with
    ⟨significand, exponent, read, large, bound, product⟩
  have positive : 0 < nearest value.natAbs := by
    apply Nat.pos_of_ne_zero
    intro zero
    rw [zero, Nat.zero_mul] at product
    have :=
      Nat.mul_pos (Nat.lt_of_lt_of_le (twoTo_pos 52) large) (twoTo_pos exponent)
    omega
  have size : (nearestInt value).natAbs = nearest value.natAbs := by
    rw [nearestInt]
    split <;> omega
  refine ⟨significand, exponent, ?_, ⟨large, bound⟩, size ▸ product, ?_, by omega⟩
  · rw [ofInt, read, Option.getD_some]
  · rw [nearestInt]
    split <;> omega

theorem sameValue_ofInt_zero {value : Int} (small : value.natAbs < twoTo 64) :
    (ofInt 0).sameValue (ofInt value) = true ↔ Alike 0 value := by
  have zero : ofInt 0 = Binary64.zero false := rfl
  have none : nearestInt 0 = 0 := rfl
  rw [alike_iff, none, zero]
  by_cases nonzero : value = 0
  · subst nonzero
    exact iff_of_true rfl rfl
  · rcases ofInt_nonzero nonzero small with
      ⟨significand, exponent, read, bounds, -, -, some⟩
    have positive : significand ≠ 0 :=
      Nat.ne_of_gt (Nat.lt_of_lt_of_le (twoTo_pos 52) bounds.1)
    refine iff_of_false ?_ (Ne.symm some)
    rw [read]
    simp [sameValue, isZero, Binary64.zero, positive, Ne.symm positive]

/-- The numbers that stand for two integers have the same value exactly if the
nearest number is the same for both. -/
theorem sameValue_ofInt {left right : Int} (small : left.natAbs < twoTo 64)
    (bounded : right.natAbs < twoTo 64) :
    (ofInt left).sameValue (ofInt right) = true ↔ Alike left right := by
  by_cases zero : left = 0
  · subst zero
    exact sameValue_ofInt_zero bounded
  · by_cases none : right = 0
    · subst none
      rw [sameValue_comm, sameValue_ofInt_zero small, alike_iff, alike_iff,
        eq_comm]
    · rcases ofInt_nonzero zero small with
        ⟨first, low, read, bounds, product, sign, -⟩
      rcases ofInt_nonzero none bounded with
        ⟨second, high, other, others, product', sign', -⟩
      have positive : first ≠ 0 :=
        Nat.ne_of_gt (Nat.lt_of_lt_of_le (twoTo_pos 52) bounds.1)
      rw [alike_iff, read, other]
      simp only [sameValue, isZero, beq_iff_eq, Bool.or_eq_true, Bool.and_eq_true,
        positive, false_and, false_or, mk.injEq, decide_eq_decide]
      constructor
      · rintro ⟨signs, rfl, exponents⟩
        have same : low = high := by omega
        subst same
        have sizes :=
          Nat.eq_of_mul_eq_mul_right (twoTo_pos 52) (product.symm.trans product')
        omega
      · intro same
        rw [same] at product sign
        rcases eq_of_product bounds others (product.trans product'.symm) with
          ⟨rfl, rfl⟩
        exact ⟨sign.symm.trans sign', rfl, rfl⟩

end Binary64

end RequestFlow.Decimal
