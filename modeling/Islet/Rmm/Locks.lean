import Islet.Rmm.Runs

/-! The spinlocks of granules. A handler that comes to a lock it holds already waits for itself. -/

namespace Islet.Rmm

open Lib Prog Bits Rmi

variable [Platform] {s : Machine}

/-- A handler waits for itself only in three commands: REALM_CREATE with the descriptor among the root tables,
REC_ENTER with the REC as the `Run` page, and ISLET_REALM_SET_METADATA with the descriptor as the granule for the
metadata, each where all checks before the second lock pass. -/
theorem Machine.Reachable.locks_once (reached : s.Reachable) (cmd : Command) :
    (s.handle cmd).1 ≠ .error .deadlock ↔ ¬SelfLocks s.core cmd :=
  not_congr (Machine.handle_deadlock reached.inv)

open Sample in
omit [Platform] in
/-- A REC that is entered with a page of the host. -/
theorem locks_once_enter : ∃ _ : Platform, ∃ s : Machine, s.Reachable ∧ s.core.Has (bankAt 5) .recCtx ∧
    (s.handle (.recEnter (BitVec.ofNat 64 (bankAt 5)) (BitVec.ofNat 64 hostPage) [])).1 ≠ .error .deadlock := by
  have reached := staffed_via.reachable
  refine ⟨platform, staffed, reached, by decide +kernel, (reached.locks_once _).mpr ?_⟩
  rintro ⟨same, _⟩
  exact absurd same (by decide)

open Sample in
omit [Platform] in
/-- A REC that is entered with its own granule as the `Run` page. -/
theorem locks_twice : ∃ _ : Platform, ∃ s : Machine, s.Reachable ∧
    (s.handle (.recEnter (BitVec.ofNat 64 (bankAt 5)) (BitVec.ofNat 64 (bankAt 5)) [])).1 = .error .deadlock := by
  exact ⟨platform, staffed, staffed_via.reachable, by decide +kernel⟩

open Sample in
omit [Platform] in
/-- With the realm descriptor as the `Run` page it does not come to a second lock. -/
example : ∃ _ : Platform, (staffed.handle (.recEnter (BitVec.ofNat 64 (bankAt 5)) (BitVec.ofNat 64 (bankAt 0)) [])).1 ≠
    .error .deadlock := ⟨platform, by decide +kernel⟩

end Islet.Rmm
