import Mathlib.Tactic.Common
import Mathlib.Tactic.Ring

/-! The granules the monitor manages, as in the array build of the granule
status table: which addresses are granules, how they are numbered, and the
states a granule can be in. Sizes and regions are those of the FVP platform. -/

namespace Islet.Rmm

abbrev granuleSize : Nat := 4096

/-- `FVP_DRAM0_REGION`. -/
abbrev fvpDram0Start : Nat := 0x80000000

abbrev fvpDram0End : Nat := 0x80000000 + 0x7C000000

/-- `FVP_DRAM1_REGION`. -/
abbrev fvpDram1Start : Nat := 0x880000000

abbrev fvpDram1End : Nat := 0x880000000 + 0x80000000

abbrev fvpDram1Idx : Nat := (fvpDram0End - fvpDram0Start) / granuleSize

/-- `GRANULE_STATUS_TABLE_SIZE`. -/
abbrev granuleStatusTableSize : Nat := 0xfc000

def inDram0 (addr : Nat) : Bool := fvpDram0Start ≤ addr && addr < fvpDram0End

def inDram1 (addr : Nat) : Bool := fvpDram1Start ≤ addr && addr < fvpDram1End

def validateAddr (addr : Nat) : Bool :=
  addr % granuleSize == 0 && (inDram0 addr || inDram1 addr)

/-- The table index of an address; `usize::MAX` outside the two regions. -/
def granuleAddrToIndex (addr : Nat) : Nat :=
  if inDram0 addr then (addr - fvpDram0Start) / granuleSize
  else if inDram1 addr then (addr - fvpDram1Start) / granuleSize + fvpDram1Idx
  else 2 ^ 64 - 1

def indexToAddr (idx : Nat) : Nat :=
  if idx < fvpDram1Idx then fvpDram0Start + idx * granuleSize
  else fvpDram1Start + (idx - fvpDram1Idx) * granuleSize

def isGranuleAligned (addr : Nat) : Bool := addr % granuleSize == 0

inductive GranuleState where
  | undelegated
  | delegated
  | rd
  | recCtx
  | recAux
  | data
  | rtt
  | metadata
  deriving DecidableEq, Repr, Inhabited

/-- What the granule protection table of EL3 records for a granule. -/
inductive GranuleGpt where
  | ns
  | other
  | realm
  deriving DecidableEq, Repr, Inhabited

/-- An entry of the granule status table, without its lock. The reference count
is an `AtomicU8`. -/
structure Granule where
  state : GranuleState
  refCount : BitVec 8
  deriving DecidableEq, Repr

def Granule.new : Granule := ⟨.undelegated, 0⟩

/-! ### Addresses and indices -/

theorem validateAddr_iff {addr : Nat} :
    validateAddr addr = true ↔ addr % 4096 = 0 ∧
      (0x80000000 ≤ addr ∧ addr < 0xFC000000 ∨ 0x880000000 ≤ addr ∧ addr < 0x900000000) := by
  simp [validateAddr, inDram0, inDram1, granuleSize, fvpDram0Start, fvpDram0End, fvpDram1Start,
    fvpDram1End]

theorem granuleAddrToIndex_of_valid {addr : Nat} (valid : validateAddr addr = true) :
    granuleAddrToIndex addr =
      if addr < 0xFC000000 then (addr - 0x80000000) / 4096
      else (addr - 0x880000000) / 4096 + 0x7C000 := by
  rw [validateAddr_iff] at valid
  simp only [granuleAddrToIndex, inDram0, inDram1, granuleSize, fvpDram0Start, fvpDram0End,
    fvpDram1Start, fvpDram1End, fvpDram1Idx, Bool.and_eq_true, decide_eq_true_eq]
  split_ifs <;> omega

theorem granuleAddrToIndex_lt {addr : Nat} (valid : validateAddr addr = true) :
    granuleAddrToIndex addr < granuleStatusTableSize := by
  rw [granuleAddrToIndex_of_valid valid]
  rw [validateAddr_iff] at valid
  unfold granuleStatusTableSize
  split_ifs <;> omega

theorem indexToAddr_granuleAddrToIndex {addr : Nat} (valid : validateAddr addr = true) :
    indexToAddr (granuleAddrToIndex addr) = addr := by
  rw [granuleAddrToIndex_of_valid valid]
  rw [validateAddr_iff] at valid
  simp only [indexToAddr, granuleSize, fvpDram0Start, fvpDram0End, fvpDram1Start, fvpDram1Idx]
  split_ifs <;> omega

/-- Different granules have different table entries. -/
theorem granuleAddrToIndex_inj {a b : Nat} (left : validateAddr a = true)
    (right : validateAddr b = true) :
    granuleAddrToIndex a = granuleAddrToIndex b ↔ a = b := by
  constructor
  · intro same
    rw [← indexToAddr_granuleAddrToIndex left, same, indexToAddr_granuleAddrToIndex right]
  · rintro rfl
    rfl

theorem validateAddr_indexToAddr {i : Nat} (bound : i < granuleStatusTableSize) :
    validateAddr (indexToAddr i) = true := by
  rw [validateAddr_iff]
  simp only [granuleStatusTableSize] at bound
  simp only [indexToAddr, granuleSize, fvpDram0Start, fvpDram0End, fvpDram1Start, fvpDram1Idx]
  split_ifs <;> omega

theorem granuleAddrToIndex_indexToAddr {i : Nat} (bound : i < granuleStatusTableSize) :
    granuleAddrToIndex (indexToAddr i) = i := by
  rw [granuleAddrToIndex_of_valid (validateAddr_indexToAddr bound)]
  simp only [granuleStatusTableSize] at bound
  simp only [indexToAddr, granuleSize, fvpDram0Start, fvpDram0End, fvpDram1Start, fvpDram1Idx]
  split_ifs <;> omega

end Islet.Rmm
