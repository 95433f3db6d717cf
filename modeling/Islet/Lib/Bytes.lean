import Mathlib.Data.List.Basic
import Mathlib.Tactic.Common
import Mathlib.Tactic.Ring

/-! Numbers as sequences of bytes of a fixed length, in both orders. -/

namespace Lib.Bytes

/-- The lowest `n` bytes of a number, the lowest first. -/
def toLe : Nat → Nat → List UInt8
  | 0, _ => []
  | n + 1, k => UInt8.ofNat k :: toLe n (k / 256)

def ofLe : List UInt8 → Nat
  | [] => 0
  | b :: bytes => b.toNat + 256 * ofLe bytes

/-- The same with the highest byte first. -/
def toBe (n k : Nat) : List UInt8 := (toLe n k).reverse

def ofBe (bytes : List UInt8) : Nat := ofLe bytes.reverse

@[simp] theorem length_toLe (n k : Nat) : (toLe n k).length = n := by
  induction n generalizing k with
  | zero => rfl
  | succ n ih => simp [toLe, ih]

@[simp] theorem length_toBe (n k : Nat) : (toBe n k).length = n := by
  simp [toBe]

theorem ofLe_toLe {n k : Nat} (small : k < 256 ^ n) : ofLe (toLe n k) = k := by
  induction n generalizing k with
  | zero => simp [toLe, ofLe]; omega
  | succ n ih =>
    have rest : k / 256 < 256 ^ n := by
      rw [Nat.div_lt_iff_lt_mul (by decide), ← Nat.pow_succ]
      exact small
    simp only [toLe, ofLe, ih rest, UInt8.toNat_ofNat']
    omega

theorem ofBe_toBe {n k : Nat} (small : k < 256 ^ n) : ofBe (toBe n k) = k := by
  rw [ofBe, toBe, List.reverse_reverse, ofLe_toLe small]

end Lib.Bytes
