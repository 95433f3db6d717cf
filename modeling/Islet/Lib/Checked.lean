import Mathlib.Data.Nat.Basic
import Mathlib.Tactic.Ring

/-! Unsigned machine arithmetic that notices when it goes wrong: an operation has no result if the mathematical one does
not fit the width, or if a shift is by more than the width. -/

namespace Lib.Checked

def add (width a b : Nat) : Option Nat := if a + b < 2 ^ width then some (a + b) else none

def sub (a b : Nat) : Option Nat := if b ≤ a then some (a - b) else none

def mul (width a b : Nat) : Option Nat := if a * b < 2 ^ width then some (a * b) else none

/-- Bits that are shifted out are no overflow, a shift by the width or more is. -/
def shiftLeft (width a k : Nat) : Option Nat := if k < width then some (a * 2 ^ k % 2 ^ width) else none

variable {width a b : Nat}

theorem add_of_lt (fits : a + b < 2 ^ width) : add width a b = some (a + b) := if_pos fits

theorem sub_of_le (fits : b ≤ a) : sub a b = some (a - b) := if_pos fits

theorem sub_of_lt (small : a < b) : sub a b = none := if_neg (Nat.not_le.mpr small)

theorem mul_of_lt (fits : a * b < 2 ^ width) : mul width a b = some (a * b) := if_pos fits

theorem shiftLeft_of_lt {k : Nat} (narrow : k < width) (fits : a * 2 ^ k < 2 ^ width) :
    shiftLeft width a k = some (a * 2 ^ k) := by
  rw [shiftLeft, if_pos narrow, Nat.mod_eq_of_lt fits]

end Lib.Checked
