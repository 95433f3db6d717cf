import Islet.Armv9a.Bits

/-! Addresses and ranges of 4 KiB pages, after `lib/vmsa`: the table indices of
an address, rounding, and the iterator over the pages of a range. Addresses are
natural numbers; where the Rust arithmetic wraps in a release build, the
reduction modulo `2 ^ 64` is written out. -/

namespace Islet.Vmsa

open Bits

/-- `align_down`; `align` is a power of two. -/
def alignDown (addr align : Nat) : Nat := addr / align * align

namespace RawGpa

def l0Index : Word := defineMask 47 39

def l1Index : Word := defineMask 38 30

def l2Index : Word := defineMask 29 21

def l3Index : Word := defineMask 20 12

/-- The nine index bits of an address in a table of the given level. -/
def index (level addr : Nat) : Nat :=
  let mask := match level with
    | 0 => l0Index
    | 1 => l1Index
    | 2 => l2Index
    | _ => l3Index
  (getMaskedValue (BitVec.ofNat 64 addr) mask).toNat

theorem index_eq {level : Nat} (addr : Nat) (bound : level ≤ 3) :
    index level addr = addr / 2 ^ (39 - 9 * level) % 512 := by
  have read : ∀ lo hi, lo + 8 = hi → hi < 64 →
      (getMaskedValue (BitVec.ofNat 64 addr) (defineMask hi lo)).toNat = addr / 2 ^ lo % 512 := by
    intro lo hi width small
    rw [toNat_getMaskedValue_defineMask _ (by omega) small, BitVec.toNat_ofNat,
      show hi + 1 - lo = 9 by omega]
    apply Nat.eq_of_testBit_eq
    intro i
    rw [show 512 = 2 ^ 9 by rfl, Nat.testBit_mod_two_pow, Nat.testBit_mod_two_pow,
      Nat.testBit_div_two_pow, Nat.testBit_div_two_pow, Nat.testBit_mod_two_pow]
    by_cases small : i < 9
    · simp [small, show i + lo < 64 by omega]
    · simp [small]
  obtain rfl | rfl | rfl | rfl : level = 0 ∨ level = 1 ∨ level = 2 ∨ level = 3 := by omega
  · exact read 39 47 (by omega) (by omega)
  · exact read 30 38 (by omega) (by omega)
  · exact read 21 29 (by omega) (by omega)
  · exact read 12 20 (by omega) (by omega)

end RawGpa

/-- The pages from `current` to `last`, both included. -/
structure PageIter where
  current : Nat
  last : Nat

namespace PageIter

/-- `Page::range_with_size`; `none` where `Page::range` asserts. -/
def rangeWithSize (addr size : Nat) : Option PageIter :=
  let first := alignDown addr 4096
  let last := alignDown ((addr + size - 1) % 2 ^ 64) 4096
  if first ≤ last then some ⟨first, last⟩ else none

def next (it : PageIter) : Option (Nat × PageIter) :=
  if it.current ≤ it.last then some (it.current, { it with current := (it.current + 4096) % 2 ^ 64 })
  else none

/-- An iterator that has given out this many pages without ending has wrapped
around and never ends. -/
def limit : Nat := 2 ^ 52 + 2

theorem next_of_le {current last : Nat} (more : current ≤ last) (small : current + 4096 < 2 ^ 64) :
    next ⟨current, last⟩ = some (current, ⟨current + 4096, last⟩) := by
  simp only [next, more, if_true, Nat.mod_eq_of_lt small]

theorem next_of_lt {current last : Nat} (past : last < current) : next ⟨current, last⟩ = none := by
  simp only [next, if_neg (Nat.not_le.mpr past)]

end PageIter

end Islet.Vmsa
