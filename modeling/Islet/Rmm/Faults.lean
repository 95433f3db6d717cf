import Islet.Rmm.Aborts
import Islet.Rmm.Configurations

/-! Walks of the IPA of a data abort. Commands of the host bound an IPA before they walk
it, the handler of an abort does not: it may come to an index that no root table has, or
to the entry of another IPA. -/

namespace Islet.Rmm

open Lib Prog Rmi Stage2Translation Vmsa

variable [Platform] {s t u : Machine} {r o : Nat} {rd : Rd} {step : RealmStep}

/-- The walk of the IPA has an entry in the root tables that is not the entry of an IPA in range instead. -/
def Rd.Distinguishes (rd : Rd) (ipa : Nat) : Prop :=
  ipa < rd.ipaSize ∨ (rd.ipaSize ≤ ipa % rd.walkSize ∧ ipa % rd.walkSize < rd.rootSize)

/-- The handler of the abort returns, and an IPA out of range is not looked up as one in range. -/
structure Machine.ContainsFault (u : Machine) (r : Nat) (rd : Rd) (step : RealmStep) : Prop where
  returns : ∃ ret v, (handleDataAbort (granuleAddrToIndex r) step).run u = (.ok ret, v)
  apart : rd.ipaSize ≤ step.faultIpa → ∀ ipa < rd.ipaSize,
    rd.tables.indexPath step.faultIpa ≠ rd.tables.indexPath ipa

omit [Platform] in
theorem Rd.Shape.rootSlot?_iff (shape : rd.Shape) {ipa : Nat} :
    rd.tables.rootSlot? (alignDown ipa 4096) ≠ none ↔ ipa % rd.walkSize < rd.rootSize := by
  have levels := shape.level_le
  unfold Stage2Translation.rootSlot?
  dsimp only
  rw [shape.rootIndex_mod, Nat.div_div_eq_div_mul, ← entry_bytes (by omega), Rd.rootSize,
    ← Nat.div_lt_iff_lt_mul (Nat.two_pow_pos _)]
  split_ifs with inside
  · exact iff_of_true nofun inside
  · exact iff_of_false (fun some => some rfl) inside

omit [Platform] in
theorem Rd.Shape.distinguishes_iff (shape : rd.Shape) {ipa : Nat} :
    rd.Distinguishes ipa ↔ rd.tables.rootSlot? (alignDown ipa 4096) ≠ none ∧
      (rd.ipaSize ≤ ipa → ∀ other < rd.ipaSize, rd.tables.indexPath ipa ≠ rd.tables.indexPath other) := by
  have fits := shape.ipaSize_le
  rw [shape.rootSlot?_iff]
  constructor
  · rintro (inside | ⟨beyond, covered⟩)
    · rw [Nat.mod_eq_of_lt (by omega)]
      exact ⟨Nat.lt_of_lt_of_le inside shape.covered, fun beyond => absurd inside (by omega)⟩
    · refine ⟨covered, fun _ other inside same => ?_⟩
      rw [shape.indexPath_iff, Nat.mod_eq_of_lt (show other < rd.walkSize by omega)] at same
      -- the space ends at the end of a page
      have pages : rd.ipaSize = 4096 * (rd.ipaSize / 4096) := by
        refine (Nat.mul_div_cancel' ?_).symm
        have bits := shape.halves
        have levels := shape.level_le
        exact Nat.pow_dvd_pow 2 (show 12 ≤ rd.ipaBits by omega)
      omega
  · rintro ⟨covered, apart⟩
    by_cases inside : ipa < rd.ipaSize
    · exact .inl inside
    refine .inr ⟨?_, covered⟩
    by_contra within
    refine apart (by omega) (ipa % rd.walkSize) (by omega) ?_
    rw [shape.indexPath_iff, Nat.mod_mod]

/-- An abort outside of the root tables is not handled. -/
theorem Serving.abort_panics (serving : Serving t r o rd)
    (lost : rd.tables.rootSlot? (alignDown step.faultIpa 4096) = none) :
    wp (handleDataAbort (granuleAddrToIndex r) step) (fun _ _ => False) (fun halt _ => halt = .panic) t := by
  have panics : rd.tables.walk t.core step.faultIpa 3 false = .panic := by
    unfold walk
    rw [if_neg (by omega), lost]
  unfold handleDataAbort
  refine wp_inScope (serving.wp_ownerRd ?_)
  dsimp only
  rw [wp_bind, wp_modifyRun, wp_bind]
  unfold isNonEmulatableDataAbort getS2tte
  rw [wp_bind, wp_bind]
  refine wp_walkTo (serving.inv.realms.registered serving.realm) (fun slot last found => ?_) (fun missing => ?_) fun _ => rfl
  · cases panics.symm.trans found
  · cases panics.symm.trans missing

/-- An abort in the root tables is handled. -/
theorem Serving.abort_returns (serving : Serving t r o rd) (abort : step.IsAbort)
    (covered : rd.tables.rootSlot? (alignDown step.faultIpa 4096) ≠ none) :
    ∃ ret v, (handleDataAbort (granuleAddrToIndex r) step).run t = (.ok ret, v) := by
  have exits : wp (Rmi.handleRealmExit (granuleAddrToIndex r) step) (fun _ _ => True) (fun _ _ => False) t :=
    serving.wp_abort abort (fun lost => absurd lost covered) (fun _ => trivial) fun _ => trivial
  have same : Rmi.handleRealmExit (granuleAddrToIndex r) step =
      handleDataAbort (granuleAddrToIndex r) step >>= fun ret => pure (true, ret) := by
    unfold Rmi.handleRealmExit
    dsimp only
    rw [if_neg (fun isRsi => nomatch isRsi.2.symm.trans abort.2), if_pos (show _ ∧ _ from abort)]
  rw [same, wp_bind] at exits
  cases handled : (handleDataAbort (granuleAddrToIndex r) step).run t with
  | mk result v =>
    cases result with
    | ok ret => exact ⟨ret, v, rfl⟩
    | error halt => exact (wp_error exits handled).elim

/-- The abort of a realm is contained exactly if its IPA is told apart by the indices. -/
theorem Machine.Reachable.faults_contained {recW runW : Word} {before : List RealmStep} (reached : s.Reachable)
    (exits : s.Exits recW runW before step u) (abort : step.IsAbort) :
    ∃ o rd, (u.core.mem recW.toNat).asRec.owner = some o ∧ u.core.realm? o = some rd ∧
      (u.ContainsFault recW.toNat rd step ↔ rd.Distinguishes step.faultIpa) := by
  have inv := reached.inv
  obtain ⟨o, atExit⟩ := exits.atExit inv fun _ => id
  obtain ⟨rd, serving⟩ := atExit.serving inv
  refine ⟨o, rd, serving.owner, serving.realm, ?_⟩
  rw [(serving.inv.realms.shape serving.realm).distinguishes_iff]
  constructor
  · rintro ⟨⟨ret, v, returned⟩, apart⟩
    exact ⟨fun lost => wp_ok (serving.abort_panics lost) returned, apart⟩
  · rintro ⟨covered, apart⟩
    exact ⟨serving.abort_returns abort covered, apart⟩

open Sample in
omit [Platform] in
/-- An access to an address in range. -/
theorem fault_contained : ∃ _ : Platform, ∃ (s u : Machine) (recW runW : Word) (step : RealmStep) (rd : Rd),
    s.Reachable ∧ s.Exits recW runW [] step u ∧ step.IsAbort ∧ u.ContainsFault recW.toNat rd step := by
  let step := RealmStep.access (registers 0 0) 0 0x2000
  have reached := staffed_via.reachable
  obtain ⟨u, rd, exits, owner, realm, inside⟩ := staffed.exists_firstExit (BitVec.ofNat 64 (bankAt 5))
    (BitVec.ofNat 64 hostPage) step (bankAt 0) (fun _ rd => step.faultIpa < rd.ipaSize) (by decide +kernel)
    (by decide +kernel)
  obtain ⟨o, rd', owner', realm', iff⟩ := reached.faults_contained exits (RealmStep.access_isAbort _ _ _)
  cases owner'.symm.trans owner
  cases realm'.symm.trans realm
  exact ⟨platform, staffed, u, _, _, step, rd, reached, exits, RealmStep.access_isAbort _ _ _, iff.mpr (.inl inside)⟩

open Sample in
omit [Platform] in
/-- In a realm with 39 bits of address space and one table at level 1, the address `2 ^ 39` is looked up as 0. -/
theorem fault_aliased : ∃ _ : Platform, ∃ (s u : Machine) (recW runW : Word) (step : RealmStep) (rd : Rd),
    s.Reachable ∧ s.Exits recW runW [] step u ∧ step.IsAbort ∧ u.core.realm? (bankAt 0) = some rd ∧
      rd.ipaSize ≤ step.faultIpa ∧ rd.tables.indexPath step.faultIpa = rd.tables.indexPath 0 ∧
      ¬u.ContainsFault recW.toNat rd step := by
  let step := RealmStep.access (registers 0 0) 0 0x80000000
  obtain ⟨u, rd, exits, _, realm, beyond, aliased⟩ := staffed.exists_firstExit (BitVec.ofNat 64 (bankAt 5))
    (BitVec.ofNat 64 hostPage) step (bankAt 0) (fun _ rd => rd.ipaSize ≤ step.faultIpa ∧
      rd.tables.indexPath step.faultIpa = rd.tables.indexPath 0) (by decide +kernel) (by decide +kernel)
  exact ⟨platform, staffed, u, _, _, step, rd, staffed_via.reachable, exits, RealmStep.access_isAbort _ _ _, realm,
    beyond, aliased, fun contained => contained.apart beyond 0 (Nat.two_pow_pos _) aliased⟩

end Islet.Rmm
