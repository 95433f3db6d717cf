import Mathlib.Data.BitVec
import Mathlib.Tactic.Common
import Mathlib.Tactic.Ring

/-! Bit fields of a 64-bit register or descriptor, as `define_mask!` and
`define_bits!` build them: a field is the word that has exactly its bits set,
and its value is read by masking and shifting by the number of trailing zeros.

The lemmas at the end say what a field of a descriptor is when the descriptor
is put together with `|` from an address and from other fields. They are the
only facts about bits that the rest of the development uses. -/

namespace Islet

/-- A 64-bit word: a register, a descriptor, or eight bytes of memory. -/
abbrev Word := BitVec 64

namespace Bits

/-- `define_mask!(end, beg)`. -/
def defineMask (hi lo : Nat) : Word := (1#64 <<< hi) - (1#64 <<< lo) + (1#64 <<< hi)

/-- `u64::trailing_zeros`: the position of the lowest set bit, 64 for zero. -/
def trailingZeros (mask : Word) : Nat := (List.range 64).findIdx fun i => mask.getLsbD i

def getMasked (w mask : Word) : Word := w &&& mask

def getMaskedValue (w mask : Word) : Word := (w &&& mask) >>> trailingZeros mask

def bitsInReg (mask value : Word) : Word := (value <<< trailingZeros mask) &&& mask

def setMaskedValue (w mask value : Word) : Word := (w &&& ~~~mask) ||| bitsInReg mask value

variable {a b w mask : Word} {hi lo : Nat}

theorem toNat_defineMask (ordered : lo ≤ hi) (bound : hi < 64) :
    (defineMask hi lo).toNat = 2 ^ lo * (2 ^ (hi + 1 - lo) - 1) := by
  have split : 2 ^ lo * 2 ^ (hi + 1 - lo) = 2 ^ (hi + 1) := by
    rw [← pow_add]; congr 1; omega
  have double : 2 ^ (hi + 1) = 2 * 2 ^ hi := by ring
  have small : 2 ^ (hi + 1) ≤ 2 ^ 64 := Nat.pow_le_pow_right (by omega) (by omega)
  have below : 2 ^ lo ≤ 2 ^ hi := Nat.pow_le_pow_right (by omega) ordered
  have positive : 0 < 2 ^ lo := Nat.two_pow_pos lo
  have shifted : ∀ k, k < 64 → (1#64 <<< k).toNat = 2 ^ k := by
    intro k bounded
    have fits : 2 ^ k < 2 ^ 64 := Nat.pow_lt_pow_right (by omega) bounded
    simpa [BitVec.toNat_shiftLeft, Nat.one_shiftLeft] using fits
  have value : (defineMask hi lo).toNat = 2 ^ (hi + 1) - 2 ^ lo := by
    unfold defineMask
    rw [BitVec.toNat_add, BitVec.toNat_sub, shifted hi bound, shifted lo (by omega)]
    omega
  rw [value, Nat.mul_sub, split, Nat.mul_one]

theorem getLsbD_defineMask (ordered : lo ≤ hi) (bound : hi < 64) (i : Nat) :
    (defineMask hi lo).getLsbD i = decide (lo ≤ i ∧ i ≤ hi) := by
  rw [BitVec.getLsbD, toNat_defineMask ordered bound, Nat.testBit_two_pow_mul,
    Nat.testBit_two_pow_sub_one, ← Bool.decide_and]
  exact decide_eq_decide.mpr (by omega)

theorem trailingZeros_defineMask (ordered : lo ≤ hi) (bound : hi < 64) :
    trailingZeros (defineMask hi lo) = lo := by
  unfold trailingZeros
  rw [List.findIdx_eq (by simp; omega)]
  constructor
  · simp [getLsbD_defineMask ordered bound, ordered]
  · intro j below
    simp [getLsbD_defineMask ordered bound]
    omega

/-- The value of a field as arithmetic on the word. -/
theorem toNat_getMaskedValue_defineMask (w : Word) (ordered : lo ≤ hi) (bound : hi < 64) :
    (getMaskedValue w (defineMask hi lo)).toNat = w.toNat / 2 ^ lo % 2 ^ (hi + 1 - lo) := by
  apply Nat.eq_of_testBit_eq
  intro i
  unfold getMaskedValue
  rw [trailingZeros_defineMask ordered bound, Nat.testBit_mod_two_pow, Nat.testBit_div_two_pow]
  change ((w &&& defineMask hi lo) >>> lo).getLsbD i = _
  rw [BitVec.getLsbD_ushiftRight, BitVec.getLsbD_and, getLsbD_defineMask ordered bound,
    Bool.and_comm]
  congr 1
  · exact decide_eq_decide.mpr (by omega)
  · rw [BitVec.getLsbD, Nat.add_comm]

/-! ### Fields of a word put together from parts -/

theorem and_and_of_subset (k : Word) (subset : k &&& mask = mask) :
    w &&& k &&& mask = w &&& mask := by
  rw [BitVec.and_assoc, subset]

theorem and_and_of_disjoint (k : Word) (disjoint : k &&& mask = 0#64) :
    w &&& k &&& mask = 0#64 := by
  rw [BitVec.and_assoc, disjoint, BitVec.and_zero]

theorem getMaskedValue_or :
    getMaskedValue (a ||| b) mask = getMaskedValue a mask ||| getMaskedValue b mask := by
  unfold getMaskedValue
  rw [BitVec.and_or_distrib_right, BitVec.ushiftRight_or_distrib]

theorem getMaskedValue_getMasked_of_subset (k : Word) (subset : k &&& mask = mask) :
    getMaskedValue (getMasked w k) mask = getMaskedValue w mask := by
  unfold getMaskedValue getMasked
  rw [and_and_of_subset k subset]

theorem getMaskedValue_getMasked_of_disjoint (k : Word) (disjoint : k &&& mask = 0#64) :
    getMaskedValue (getMasked w k) mask = 0#64 := by
  unfold getMaskedValue getMasked
  rw [and_and_of_disjoint k disjoint, BitVec.zero_ushiftRight]

/-- A word inside `k` has nothing in a field outside `k`. -/
theorem getMaskedValue_of_inside {k : Word} (inside : w &&& k = w) (disjoint : k &&& mask = 0#64) :
    getMaskedValue w mask = 0#64 := by
  rw [← inside]
  exact getMaskedValue_getMasked_of_disjoint k disjoint

theorem getMasked_or : getMasked (a ||| b) mask = getMasked a mask ||| getMasked b mask :=
  BitVec.and_or_distrib_right

/-- A part of a mask keeps as much of a word as the whole exactly if there is nothing in the rest. -/
theorem getMasked_eq_or_iff {rest : Word} (apart : mask &&& rest = 0#64) :
    getMasked w mask = getMasked w (mask ||| rest) ↔ getMasked w rest = 0#64 := by
  unfold getMasked
  rw [BitVec.and_or_distrib_left]
  constructor
  · intro same
    have inner := congrArg (· &&& rest) same
    simp only [BitVec.and_or_distrib_right, BitVec.and_assoc, apart, BitVec.and_self, BitVec.and_zero,
      BitVec.zero_or] at inner
    exact inner.symm
  · intro none
    rw [none, BitVec.or_zero]

/-- A word is put together from what a mask keeps and bits outside of the mask exactly if those are its own. -/
theorem or_getMasked_eq_iff {f : Word} (outside : f &&& mask = 0#64) :
    f ||| getMasked w mask = w ↔ getMasked w (~~~mask) = f := by
  unfold getMasked
  constructor
  · intro whole
    rw [← whole]
    ext i bound
    have apart := congrArg (fun x : Word => x[i]) outside
    simp at apart ⊢
    grind
  · intro rest
    rw [← rest]
    ext i bound
    simp
    grind

theorem bitsInReg_inside (value : Word) : bitsInReg mask value &&& mask = bitsInReg mask value := by
  unfold bitsInReg
  rw [BitVec.and_assoc, BitVec.and_self]

/-- A field holds what was put into it, if that fits. -/
theorem toNat_getMaskedValue_bitsInReg {value : Word} (ordered : lo ≤ hi) (bound : hi < 64)
    (fits : value.toNat < 2 ^ (hi + 1 - lo)) :
    (getMaskedValue (bitsInReg (defineMask hi lo) value) (defineMask hi lo)).toNat = value.toNat := by
  apply Nat.eq_of_testBit_eq
  intro i
  unfold getMaskedValue
  rw [bitsInReg_inside, bitsInReg, trailingZeros_defineMask ordered bound]
  change ((value <<< lo &&& defineMask hi lo) >>> lo).getLsbD i = value.getLsbD i
  rw [BitVec.getLsbD_ushiftRight, BitVec.getLsbD_and, BitVec.getLsbD_shiftLeft, getLsbD_defineMask ordered bound,
    Nat.add_sub_cancel_left]
  by_cases inside : lo + i ≤ hi
  · simp [inside, show lo + i < 64 by omega]
  · have high : value.getLsbD i = false :=
      Nat.testBit_lt_two_pow (fits.trans_le (Nat.pow_le_pow_right (by omega) (by omega)))
    simp [high]

end Bits

end Islet
