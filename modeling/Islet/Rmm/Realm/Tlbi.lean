import Islet.Rmm.Realm.Stage2Tte

/-! Invalidation of the TLB for a range of IPAs. The operand of the instruction is put together from the level of an
entry and the address it is for; what it denotes is given by the formula that the source quotes from the architecture:
the addresses from `BaseADDR` on, `(NUM + 1) * 2^(5 * SCALE + 1)` granules. -/

namespace Islet.Rmm

open Bits

namespace TlbiRangeOp

def tg : Word := defineMask 47 46
def scale : Word := defineMask 45 44
def num : Word := defineMask 43 39
def ttl : Word := defineMask 38 37
def ipa : Word := defineMask 36 0

/-- `BaseADDR`, in bytes. -/
def base (xt : Word) : Nat := (getMaskedValue xt ipa).toNat * 4096

/-- The size of the range in bytes. -/
def size (xt : Word) : Nat :=
  ((getMaskedValue xt num).toNat + 1) * 2 ^ (5 * (getMaskedValue xt scale).toNat + 1) * 4096

/-- The range that the operand denotes contains `[start, start + length)`. -/
def Covers (xt : Word) (start length : Nat) : Prop :=
  ∀ addr, start ≤ addr → addr < start + length → base xt ≤ addr ∧ addr < base xt + size xt

theorem covers_iff {xt : Word} {start length : Nat} (some_ : 0 < length) :
    Covers xt start length ↔ base xt ≤ start ∧ start + length ≤ base xt + size xt := by
  constructor
  · intro covers
    have first := covers start (Nat.le_refl _) (by omega)
    have last := covers (start + length - 1) (by omega) (by omega)
    omega
  · intro bounds addr lower upper
    omega

end TlbiRangeOp

open TlbiRangeOp

/-- The operand that `tlbi_by_vmid_ipa_range` builds. -/
def tlbiByVmidIpaRange (level guest : Word) : Word :=
  let scale := 3 - level
  let num := 8 + 4 * scale
  bitsInReg TlbiRangeOp.tg 0b01 ||| bitsInReg TlbiRangeOp.scale scale ||| bitsInReg TlbiRangeOp.num num |||
    bitsInReg TlbiRangeOp.ttl (level + 1) ||| bitsInReg TlbiRangeOp.ipa guest

/-- Fields above the address do not depend on it. -/
theorem field_or_ipa {w guest mask : Word} (apart : TlbiRangeOp.ipa &&& mask = 0#64) :
    getMaskedValue (w ||| bitsInReg TlbiRangeOp.ipa guest) mask = getMaskedValue w mask := by
  rw [getMaskedValue_or, getMaskedValue_of_inside (bitsInReg_inside guest) apart, BitVec.or_zero]

/-- The address field holds the low bits of the address as they are, not the number of its page. -/
theorem base_or_ipa {w guest : Word} (plain : getMaskedValue w TlbiRangeOp.ipa = 0#64) :
    base (w ||| bitsInReg TlbiRangeOp.ipa guest) = guest.toNat % 2 ^ 37 * 4096 := by
  have field : bitsInReg TlbiRangeOp.ipa guest = getMasked guest TlbiRangeOp.ipa := by
    unfold bitsInReg TlbiRangeOp.ipa
    rw [trailingZeros_defineMask (by omega) (by omega), BitVec.shiftLeft_zero]
    rfl
  rw [base, getMaskedValue_or, plain, BitVec.zero_or, field,
    getMaskedValue_getMasked_of_subset _ (BitVec.and_self),
    show TlbiRangeOp.ipa = defineMask 36 0 from rfl, toNat_getMaskedValue_defineMask _ (by omega) (by omega),
    Nat.pow_zero, Nat.div_one]

section Range

variable (guest : Word)

theorem base_tlbiRange {level : Word} (bound : level.toNat ≤ 2) :
    base (tlbiByVmidIpaRange level guest) = guest.toNat % 2 ^ 37 * 4096 := by
  have levels : level = 0#64 ∨ level = 1#64 ∨ level = 2#64 := by bv_omega
  rcases levels with rfl | rfl | rfl
  · exact base_or_ipa (by decide)
  · exact base_or_ipa (by decide)
  · exact base_or_ipa (by decide)

theorem size_tlbiRange {level : Word} (bound : level.toNat ≤ 2) :
    size (tlbiByVmidIpaRange level guest) =
      (8 + 4 * (3 - level.toNat) + 1) * 2 ^ (5 * (3 - level.toNat) + 1) * 4096 := by
  have levels : level = 0#64 ∨ level = 1#64 ∨ level = 2#64 := by bv_omega
  unfold size tlbiByVmidIpaRange
  simp only [field_or_ipa (show TlbiRangeOp.ipa &&& TlbiRangeOp.num = 0#64 by decide),
    field_or_ipa (show TlbiRangeOp.ipa &&& TlbiRangeOp.scale = 0#64 by decide)]
  rcases levels with rfl | rfl | rfl
  · decide
  · decide
  · decide

end Range

/-- For an aligned address, the range of the operand contains what the entry of the level maps only for the first entry
of level 2. -/
theorem tlbiByVmidIpaRange_covers {level guest : Word} {mapSize : Nat} (bound : level.toNat ≤ 2)
    (small : guest.toNat < 2 ^ 48) (mapped : S2tte.mappingSize? level.toNat = some mapSize)
    (aligned : guest.toNat % mapSize = 0) :
    Covers (tlbiByVmidIpaRange level guest) guest.toNat mapSize ↔ level.toNat = 2 ∧ guest.toNat = 0 := by
  have base := base_tlbiRange guest bound
  have size := size_tlbiRange guest bound
  have levels : level.toNat = 0 ∨ level.toNat = 1 ∨ level.toNat = 2 := by omega
  rcases levels with is | is | is <;> rw [is] at mapped size <;> cases mapped
  all_goals rw [covers_iff (by omega), base, size, is]
  · omega
  · omega
  · -- both ends are multiples of 2 MiB, so the base has to be the address itself
    omega

/-- The first entry of level 2 is the one that is covered. -/
theorem tlbiByVmidIpaRange_covers_first : Covers (tlbiByVmidIpaRange 2#64 0#64) 0 0x200000 :=
  (@tlbiByVmidIpaRange_covers 2#64 0#64 _ (by decide) (by decide) rfl (by decide)).mpr ⟨rfl, rfl⟩

/-- The second entry of level 2 is not. -/
theorem tlbiByVmidIpaRange_misses : S2tte.mappingSize? 2 = some 0x200000 ∧
    ¬Covers (tlbiByVmidIpaRange 2#64 0x200000#64) 0x200000 0x200000 := by
  refine ⟨rfl, fun covers => ?_⟩
  rw [covers_iff (by omega), base_tlbiRange _ (by decide)] at covers
  exact absurd covers.1 (by decide)

end Islet.Rmm
