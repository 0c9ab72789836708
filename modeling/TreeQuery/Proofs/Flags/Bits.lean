import Mathlib.Data.Nat.Bitwise

/-!
# Words as sets of bits

A mask is read as the set of its bits, and compared as a number. Of a set one asks
whether it is part of another, or whether the two have an element in common. Of numbers
one asks which is greater, and that is decided at the highest place where they differ.

A part is never greater than the whole. The converse fails, and `toNat_le_iff` says by
how much: a number that is not greater than another is part of it, or the other has a
bit that makes up for all the bits that it lacks, since it stands above them.

For a word with a single bit there is nothing to make up for. It is part of every word
that it has a bit in common with.

## Main definitions

* `HasBit`: A word has a one at a place.
* `Within`: Every bit of a word is a bit of another.
* `Meets`: Two words have a bit in common.
* `Outweighs`: A word has a bit above all those that it lacks of another.
* `HasOnly`: A word has a one at a single place.

## Theorems

* `and_eq_zero_iff`, `and_eq_right_iff`: The tests by which words are compared as sets.
* `toNat_le_of_within`: A part is not greater than the whole.
* `toNat_le_iff`: What it means for sets that one is not greater as a number.
* `HasOnly.within_iff_meets`: A single bit is in a word or has nothing in common with it.
-/

namespace TreeQuery.Bits

variable {w : Nat}

/-- The word has a one at the place, which is counted from the lowest bit. -/
def HasBit (word : BitVec w) (place : Nat) : Prop :=
  word.getLsbD place = true

/-- Every bit of the first word is a bit of the second. -/
def Within (part whole : BitVec w) : Prop :=
  ∀ place, HasBit part place → HasBit whole place

/-- The two words have a bit in common. -/
def Meets (left right : BitVec w) : Prop :=
  ∃ place, HasBit left place ∧ HasBit right place

/-- The first word has a bit that the second does not have, and it stands above all bits of the
    second that the first lacks. -/
def Outweighs (word other : BitVec w) : Prop :=
  ∃ place, HasBit word place ∧ ¬ HasBit other place ∧
    ∀ lacking, HasBit other lacking → ¬ HasBit word lacking → lacking < place

/-- The word has a one at this place and at no other. -/
def HasOnly (word : BitVec w) (place : Nat) : Prop :=
  ∀ other, HasBit word other ↔ other = place

theorem hasBit_and_iff (left right : BitVec w) (place : Nat) :
    HasBit (left &&& right) place ↔ HasBit left place ∧ HasBit right place := by
  rw [HasBit, BitVec.getLsbD_and, Bool.and_eq_true]
  rfl

theorem hasBit_or_iff (left right : BitVec w) (place : Nat) :
    HasBit (left ||| right) place ↔ HasBit left place ∨ HasBit right place := by
  rw [HasBit, BitVec.getLsbD_or, Bool.or_eq_true]
  rfl

theorem not_hasBit_zero (place : Nat) : ¬ HasBit (0 : BitVec w) place := by
  rw [HasBit, BitVec.ofNat_eq_ofNat, BitVec.zero_iff_eq_false.mp rfl place]
  exact Bool.false_ne_true

-- Words with the same bits are the same word.
theorem eq_of_hasBit_iff {left right : BitVec w}
    (h : ∀ place, HasBit left place ↔ HasBit right place) : left = right :=
  BitVec.eq_of_getLsbD_eq fun place _ => Bool.eq_iff_iff.mpr (h place)

theorem and_eq_zero_iff (left right : BitVec w) : left &&& right = 0 ↔ ¬ Meets left right := by
  rw [BitVec.ofNat_eq_ofNat, BitVec.zero_iff_eq_false]
  simp only [← Bool.not_eq_true]
  exact (forall_congr' fun place => not_congr (hasBit_and_iff left right place)).trans
    not_exists.symm

theorem and_eq_right_iff (whole part : BitVec w) : whole &&& part = part ↔ Within part whole := by
  constructor
  · intro hand place hplace
    rw [← hand, hasBit_and_iff] at hplace
    exact hplace.1
  · intro hwithin
    refine eq_of_hasBit_iff fun place => ?_
    rw [hasBit_and_iff]
    exact and_iff_right_of_imp (hwithin place)

theorem toNat_le_of_within {part whole : BitVec w} (h : Within part whole) :
    part.toNat ≤ whole.toNat := by
  rw [← (and_eq_right_iff ..).mpr h, BitVec.toNat_and]
  exact Nat.and_le_left

-- The order of two numbers that differ is that of their highest different bits.
theorem exists_highest_of_ne {left right : BitVec w} (h : left ≠ right) :
    ∃ place, ¬ (HasBit left place ↔ HasBit right place) ∧
      ∀ above, place < above → (HasBit left above ↔ HasBit right above) := by
  have hdiffer : (left ^^^ right).toNat ≠ 0 := by
    intro hzero
    exact h (BitVec.xor_eq_zero_iff.mp (BitVec.eq_of_toNat_eq hzero))
  have hbit : ∀ place, (left ^^^ right).toNat.testBit place = false ↔
      (HasBit left place ↔ HasBit right place) := by
    intro place
    rw [BitVec.testBit_toNat, BitVec.getLsbD_xor, bne_eq_false_iff_eq, Bool.eq_iff_iff]
    rfl
  rcases Nat.exists_most_significant_bit hdiffer with ⟨place, hplace, habove⟩
  refine ⟨place, ?_, fun above h => (hbit above).mp (habove above h)⟩
  rw [← hbit, hplace]
  exact Bool.false_ne_true.symm

-- A bit that the first number lacks, with no difference above it, makes the second greater.
theorem toNat_lt_of_highest {left right : BitVec w} {place : Nat} (hleft : ¬ HasBit left place)
    (hright : HasBit right place)
    (habove : ∀ above, place < above → (HasBit left above ↔ HasBit right above)) :
    left.toNat < right.toNat := by
  refine Nat.lt_of_testBit place (Bool.eq_false_iff.mpr hleft) hright fun above h => ?_
  exact Bool.eq_iff_iff.mpr (habove above h)

/-- A number is not greater than another exactly if its bits are among those of the other, or the
    other has a bit that stands above all those that it lacks. -/
theorem toNat_le_iff (part whole : BitVec w) :
    part.toNat ≤ whole.toNat ↔ Within part whole ∨ Outweighs whole part := by
  by_cases hsame : part = whole
  · rw [hsame]
    exact ⟨fun _ => Or.inl fun _ => id, fun _ => le_rfl⟩
  rcases exists_highest_of_ne hsame with ⟨place, hdiffer, habove⟩
  by_cases hpart : HasBit part place
  · -- The highest difference is a bit that the whole lacks, so nothing outweighs it.
    have hwhole : ¬ HasBit whole place := fun hwhole => hdiffer ⟨fun _ => hwhole, fun _ => hpart⟩
    refine iff_of_false (Nat.not_le.mpr ?_) ?_
    · exact toNat_lt_of_highest hwhole hpart fun above h => (habove above h).symm
    · rintro (hwithin | ⟨higher, hhigher, hnot, hlacking⟩)
      · exact hwhole (hwithin place hpart)
      · exact hnot ((habove higher (hlacking place hpart hwhole)).mpr hhigher)
  · have hwhole : HasBit whole place := by
      by_contra hwhole
      exact hdiffer ⟨fun h => absurd h hpart, fun h => absurd h hwhole⟩
    refine iff_of_true (Nat.le_of_lt (toNat_lt_of_highest hpart hwhole habove)) (Or.inr ?_)
    refine ⟨place, hwhole, hpart, fun lacking hhas hlacks => ?_⟩
    -- Above the highest difference nothing is lacking, and at it the whole has its bit.
    by_contra hlt
    rcases Nat.eq_or_lt_of_le (Nat.le_of_not_lt hlt) with rfl | hgt
    · exact hlacks hwhole
    · exact hlacks ((habove lacking hgt).mp hhas)

theorem Meets.of_within {left right whole : BitVec w} (h : Meets left right)
    (hwithin : Within left whole) : Meets whole right := by
  rcases h with ⟨place, hleft, hright⟩
  exact ⟨place, hwithin place hleft, hright⟩

-- A word that is not zero has something in common with every word that it is part of.
theorem Within.meets {part whole : BitVec w} (h : Within part whole) (hne : part ≠ 0) :
    Meets whole part := by
  by_contra hnot
  rw [← and_eq_zero_iff, (and_eq_right_iff ..).mpr h] at hnot
  exact hne hnot

/-- A word with a single bit is part of those words that it has a bit in common with. -/
theorem HasOnly.within_iff_meets {word : BitVec w} {place : Nat} (h : HasOnly word place)
    (whole : BitVec w) : Within word whole ↔ Meets whole word := by
  constructor
  · intro hwithin
    exact ⟨place, hwithin place ((h place).mpr rfl), (h place).mpr rfl⟩
  · intro hmeets other hother
    rcases hmeets with ⟨common, hwhole, hword⟩
    rw [(h other).mp hother, ← (h common).mp hword]
    exact hwhole

-- A single bit is shared by the words that have a one at its place.
theorem HasOnly.meets_iff_hasBit {word : BitVec w} {place : Nat} (h : HasOnly word place)
    (other : BitVec w) : Meets other word ↔ HasBit other place := by
  constructor
  · intro hmeets
    rcases hmeets with ⟨common, hother, hword⟩
    rw [← (h common).mp hword]
    exact hother
  · intro hother
    exact ⟨place, hother, (h place).mpr rfl⟩

theorem hasOnly_twoPow {place : Nat} (h : place < w) : HasOnly (BitVec.twoPow w place) place := by
  intro other
  rw [HasBit, BitVec.getLsbD_twoPow, Bool.and_eq_true, decide_eq_true_eq, decide_eq_true_eq]
  exact (and_iff_right h).trans eq_comm

end TreeQuery.Bits
