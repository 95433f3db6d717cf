import Islet.Rmm.Splitting
import Islet.Rmm.Unprotected

/-! Stale translations: every store of a descriptor that ends a translation of a realm must come with an
invalidation of what the processor has cached of it. The machine records the stores that `ipa_to_pte_set`
is asked for, with what each of them invalidates. -/

namespace Islet.Rmm

open Lib Prog Bits Rmi Stage2Translation

variable [Platform] {s t : Machine}

theorem Machine.Reachable.stores_sound (reached : s.Reachable) : ∀ set ∈ s.stores, set.Sound := by
  induction reached with
  | initial start =>
    rw [start.stores]
    exact nofun
  | step reached next ih =>
    cases next with
    | command cmd returned => exact recorded_all (Machine.exec_legal reached.inv returned).2 ih
    | hostWrite _ _ _ _ => exact ih

theorem Machine.Reachable.handle_sound (reached : s.Reachable) (cmd : Command) :
    ∀ set ∈ (s.handle cmd).2.stores, set.Sound :=
  recorded_all (Machine.handle_legal reached.inv cmd).2 reached.stores_sound

/-- Whatever a command stores in the place of a valid descriptor is invalidated for the realm, also if the command never
returns, exactly if it is neither a table in the place of a block of the host nor anything in the place of a block of a
gigabyte. -/
theorem Machine.Reachable.replaced_flushed (reached : s.Reachable) (cmd : Command) :
    ∀ set ∈ (s.handle cmd).2.stores, (set.Replaces → set.Flushes) ↔ ¬set.Forgotten :=
  reached.handle_sound cmd

open Sample in
omit [Platform] in
/-- The host takes a block of two megabytes back from the unprotected half, and its translation is flushed. -/
theorem replaced_flushed_unmap : ∃ _ : Platform, ∃ (s t : Machine) (rdW : Word), s.Reachable ∧
    s.Succeeds (.rttUnmapUnprotected rdW 0x4000000000#64 2) t ∧ ∃ set ∈ t.stores, set.Replaces ∧ set.Flushes := by
  let cmd := Command.rttUnmapUnprotected (BitVec.ofNat 64 (bankAt 0)) 0x4000000000 2
  obtain ⟨set, found, kind⟩ := (Option.any_eq_true (fun set : PteSet => set.level = 2 ∧ set.old = Rtt.unprotectedDesc 0 2 ∧
    set.new = Rtt.destroyedDesc false) (mapped.handle cmd).2.stores.head?).mp (by decide +kernel)
  obtain ⟨level, old, new⟩ := of_decide_eq_true kind
  have replaces : set.Replaces := by
    rw [PteSet.Replaces, level, old, new]
    exact ⟨.inr (by decide), by decide⟩
  have known : ¬set.Forgotten := by
    rintro (⟨_, _, table⟩ | ⟨huge, _⟩)
    · rw [new] at table
      exact absurd table (by decide)
    · exact nomatch level.symm.trans huge
  have member := List.mem_of_mem_head? found
  exact ⟨platform, mapped, _, _, mapped_via.reachable, Machine.succeeds_of_result (by decide +kernel), set, member,
    replaces, (mapped_via.reachable.replaced_flushed cmd set member).mpr known replaces⟩

open Sample in
omit [Platform] in
/-- RTT_CREATE puts a table in the place of a block of the host, and no translation of the block is invalidated. -/
theorem replaced_stale : ∃ _ : Platform, ∃ (s t : Machine) (rdW rttW : Word), s.Reachable ∧
    s.Succeeds (.rttCreate rdW rttW 0x4000000000#64 3#64) t ∧ ∃ set ∈ t.stores, set.Replaces ∧ ¬set.Flushes := by
  let cmd := Command.rttCreate (BitVec.ofNat 64 (bankAt 0)) (BitVec.ofNat 64 (bankAt 3)) 0x4000000000#64 3#64
  obtain ⟨set, found, kind⟩ := (Option.any_eq_true (fun set : PteSet => set.level = 2 ∧ set.old = Rtt.unprotectedDesc 0 2 ∧
    set.new ≠ set.old ∧ set.tlbi = .none) (mapped.handle cmd).2.stores.head?).mp (by decide +kernel)
  obtain ⟨level, old, new, tlbi⟩ := of_decide_eq_true kind
  refine ⟨platform, mapped, _, _, _, mapped_via.reachable, Machine.succeeds_of_result (by decide +kernel), set,
    List.mem_of_mem_head? found, ⟨?_, new⟩, ?_⟩
  · rw [level, old]
    exact .inr (by decide)
  · rw [PteSet.Flushes, tlbi]
    exact fun flushes => flushes.elim nofun nofun

end Islet.Rmm
