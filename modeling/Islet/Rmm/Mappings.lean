import Islet.Rmm.Runs

/-! The monitor's own page table across commands. Handlers map the pages of the host that they read, and unmap
them again, but not if the page turns out to be none of the host's: then the mapping stays. An entry is found by 27 bits
of the page number, so that it can be that of any page, also of one that `fill` has mapped for the monitor. -/

namespace Islet.Rmm

open Lib Prog Bits Rmi Mm

namespace Mm.PageTable

variable {pt pt' : PageTable} {p va : Nat}

/-- Mapping `p` for the host would give the page of `va` an entry that it does not have. -/
def Remaps (pt : PageTable) (p va : Nat) : Prop :=
  p ≠ 0 ∧ ∃ k, p / 4096 ≤ k ∧ k ≤ (p + 4095) / 4096 ∧ slot va = k % 2 ^ 27 ∧
    pt.lookup va ≠ pageDesc (4096 * k) (rmiFlags false)

/-- What `map` does to the entry of a page. -/
theorem map_cases (run : pt.map p false = .done pt') (small : p < 2 ^ 64) (va : Nat) :
    (p ≠ 0 ∧ ∃ k, p / 4096 ≤ k ∧ k ≤ (p + 4095) / 4096 ∧ slot va = k % 2 ^ 27 ∧
      pt'.lookup va = pageDesc (4096 * k) (rmiFlags false)) ∨
    (p = 0 ∨ ∀ k, p / 4096 ≤ k → k ≤ (p + 4095) / 4096 → slot va ≠ k % 2 ^ 27) ∧ pt'.lookup va = pt.lookup va := by
  by_cases zero : p = 0
  · rw [map, if_pos zero] at run
    cases run
    exact .inr ⟨.inl zero, rfl⟩
  · have limit : p ≤ mapLimit := by
      by_contra large
      exact map_stuck false (by omega) small pt' run
    obtain ⟨pt₁, run₁, maps⟩ := @map_done pt p false zero limit
    cases run.symm.trans run₁
    rcases maps va with ⟨k, low, high, number, entry⟩ | ⟨outside, entry⟩
    · exact .inl ⟨zero, k, low, high, number, entry⟩
    · exact .inr ⟨.inr outside, entry⟩

end Mm.PageTable

variable [Platform] {s t : Machine} {cmd : Command} {p q va : Nat}

omit [Platform] in
/-- A command leaves at most one pointer of the host mapped. -/
theorem LeavesMapped.unique {c : Core} (left : LeavesMapped c cmd p) (right : LeavesMapped c cmd q) : p = q := by
  cases cmd with
  | realmCreate rd ptr => exact left.1.symm.trans right.1
  | recCreate rd recAddr ptr => exact left.1.symm.trans right.1
  | recEnter recAddr run script => exact left.1.symm.trans right.1
  | _ => exact left.elim

omit [Platform] in
theorem LeavesMapped.small {c : Core} (left : LeavesMapped c cmd p) : p < 2 ^ 64 := by
  cases cmd with
  | realmCreate rd ptr => exact left.1 ▸ ptr.isLt
  | recCreate rd recAddr ptr => exact left.1 ▸ ptr.isLt
  | recEnter recAddr run script => exact left.1 ▸ run.isLt
  | _ => exact left.elim

omit [Platform] in
/-- The entries that a forgotten mapping changes are those of the non-secure pages that are new. -/
theorem LeftMapped.remaps_iff (left : LeftMapped s t p) (small : p < 2 ^ 64) (va : Nat) :
    s.pageTable.Remaps p va ↔
      PageTable.isNs (t.pageTable.lookup va) = true ∧ t.pageTable.lookup va ≠ s.pageTable.lookup va := by
  obtain ⟨pt, safe, run⟩ := left.pageTable
  rcases PageTable.map_cases run small va with ⟨nonzero, k, low, high, number, entry⟩ | ⟨outside, entry⟩
  · rw [entry, PageTable.isNs_rmi]
    refine ⟨fun ⟨_, k', low', high', number', other⟩ => ⟨rfl, ?_⟩, fun ⟨_, other⟩ => ?_⟩
    · -- the two pages that `p` can touch have different entries
      obtain rfl : k = k' := by omega
      exact other.symm
    · exact ⟨nonzero, k, low, high, number, other.symm⟩
  · rw [entry]
    refine iff_of_false (fun ⟨nonzero, k, low, high, number, _⟩ => ?_) fun ⟨ns, other⟩ => ?_
    · exact outside.resolve_left nonzero k low high number
    · rcases safe va with same | ⟨secure, _⟩
      · exact other same
      · exact nomatch ns.symm.trans secure

/-! ### The entries of the monitor -/

/-- The command maps a page of the host over one that `fill` has mapped. -/
def Machine.Overmaps (s : Machine) (cmd : Command) : Prop :=
  ∃ p va, LeavesMapped s.core cmd p ∧ PageTable.InFill Platform.memoryLayout va ∧ s.pageTable.Remaps p va

/-- A command leaves the entries that `fill` has made as they are, unless it forgets a mapping over one of them. -/
theorem Machine.Reachable.fill_kept (reached : s.Reachable) (returned : s.exec cmd = some t) :
    (∀ va, PageTable.InFill Platform.memoryLayout va → t.pageTable.lookup va = s.pageTable.lookup va) ↔
      ¬s.Overmaps cmd := by
  rcases Machine.exec_kept reached.inv returned with ⟨kept, clean⟩ | ⟨p, leaves, left⟩
  · exact iff_of_true (fun va inside => kept.pageTable.inFill inside) fun ⟨p, _, leaves, _⟩ => clean p leaves
  refine ⟨fun same ⟨q, va, leaves', inside, remaps⟩ => ?_, fun fine va inside => ?_⟩
  · obtain rfl := leaves.unique leaves'
    exact ((left.remaps_iff leaves.small va).mp remaps).2 (same va inside)
  · by_contra other
    refine fine ⟨p, va, leaves, inside, (left.remaps_iff leaves.small va).mpr ⟨?_, other⟩⟩
    obtain ⟨pt, safe, run⟩ := left.pageTable
    rcases PageTable.map_cases run leaves.small va with ⟨_, k, _, _, _, entry⟩ | ⟨_, entry⟩
    · rw [entry, PageTable.isNs_rmi]
      rfl
    · exact absurd (entry.trans (safe.inFill inside)) other

theorem Machine.Initial.isNs (start : s.Initial) (va : Nat) : PageTable.isNs (s.pageTable.lookup va) = false := by
  obtain ⟨pt, filled, secure⟩ := PageTable.fill_fillRegions Platform.memoryLayout
  cases start.pageTable.symm.trans filled
  exact secure va

namespace Sample

/-- One granule has been delegated. -/
def granted : Machine := .prepared (Action.delegates 1)

theorem granted_via : granted.ReachableVia Prepares := Machine.prepared_via _

/-- REC_CREATE with that granule for its parameters. -/
def misread : Command := .recCreate 0 1 (BitVec.ofNat 64 (bankAt 0))

end Sample

open Sample in
omit [Platform] in
/-- A delegated granule is given for the parameters of a REC, and stays mapped without harm to the monitor. -/
theorem fill_kept_granule : ∃ _ : Platform, ∃ (s t : Machine) (cmd : Command), s.Reachable ∧ s.exec cmd = some t ∧
    LeavesMapped s.core cmd (bankAt 0) ∧
    ∀ va, PageTable.InFill Platform.memoryLayout va → t.pageTable.lookup va = s.pageTable.lookup va := by
  have stray : Stray granted.core (bankAt 0) := ⟨by decide, fun host => absurd host.2 (by decide +kernel)⟩
  have leaves : LeavesMapped granted.core misread (bankAt 0) := ⟨rfl, by decide, stray⟩
  have returned : granted.exec misread = some _ := Machine.exec_next (by decide +kernel)
  refine ⟨platform, granted, _, misread, granted_via.reachable, returned, leaves,
    (granted_via.reachable.fill_kept returned).mpr ?_⟩
  rintro ⟨p, va, leaves', inside, _, k, low, high, number, _⟩
  obtain rfl := leaves.unique leaves'
  obtain ⟨page, place⟩ := PageTable.slot_of_inFill inside
  unfold bankAt at low high
  omega

open Sample in
omit [Platform] in
/-- REC_CREATE is given the address of the monitor's code, and maps it as a page of the host. -/
theorem fill_overmapped : ∃ _ : Platform, ∃ (s t : Machine) (cmd : Command), s.Reachable ∧ s.exec cmd = some t ∧
    PageTable.InFill Platform.memoryLayout 0xFDC00000 ∧
    t.pageTable.lookup 0xFDC00000 ≠ s.pageTable.lookup 0xFDC00000 := by
  refine ⟨platform, .boot, _, .recCreate 0 1 0xFDC00000, .initial Machine.boot_initial,
    Machine.exec_next (by decide +kernel), ?_, fun same => ?_⟩
  · exact ⟨_, List.mem_append_left _ (List.mem_append_left _ List.mem_cons_self), by decide, by decide⟩
  · have secure := Machine.boot_initial.isNs 0xFDC00000
    rw [← same] at secure
    exact absurd secure (by decide +kernel)

open Sample in
omit [Platform] in
/-- A granule that has only been delegated is not mapped as non-secure. -/
example : ∃ _ : Platform, PageTable.isNs (granted.pageTable.lookup (bankAt 0)) = false := ⟨platform, by decide +kernel⟩

/-! ### Pages of the host -/

/-- The command leaves an entry for a page of the host that was not there. -/
def Machine.LeavesNs (s : Machine) (cmd : Command) : Prop :=
  ∃ p va, LeavesMapped s.core cmd p ∧ s.pageTable.Remaps p va

/-- The non-secure entries after a command were there before. -/
theorem Machine.exec_isNs (inv : s.core.Inv) (returned : s.exec cmd = some t) :
    (∀ va, PageTable.isNs (t.pageTable.lookup va) = true → t.pageTable.lookup va = s.pageTable.lookup va) ↔
      ¬s.LeavesNs cmd := by
  rcases Machine.exec_kept inv returned with ⟨kept, clean⟩ | ⟨p, leaves, left⟩
  · refine iff_of_true (fun va ns => (kept.pageTable va).resolve_right fun changed => ?_)
      fun ⟨p, _, leaves, _⟩ => clean p leaves
    exact nomatch ns.symm.trans changed.1
  · refine ⟨fun same ⟨q, va, leaves', remaps⟩ => ?_, fun fine va ns => ?_⟩
    · obtain rfl := leaves.unique leaves'
      obtain ⟨ns, other⟩ := (left.remaps_iff leaves.small va).mp remaps
      exact other (same va ns)
    · by_contra other
      exact fine ⟨p, va, leaves, (left.remaps_iff leaves.small va).mpr ⟨ns, other⟩⟩

theorem Machine.ReachableVia.isNs (reached : s.ReachableVia fun s cmd => ¬s.LeavesNs cmd) (va : Nat) :
    PageTable.isNs (s.pageTable.lookup va) = false := by
  induction reached with
  | initial start => exact start.isNs va
  | command reached cmd meets returned ih =>
    rw [← Bool.not_eq_true] at ih ⊢
    intro ns
    rw [(Machine.exec_isNs reached.reachable.inv returned).mpr meets va ns] at ns
    exact ih ns
  | hostWrite _ _ _ _ _ ih => exact ih

/-- No command adds an entry for a page of the host to the monitor's table, whether it succeeds or fails, unless it
forgets a mapping. In a run without such a command there is never one between commands, and so none for a granule. -/
theorem Machine.mappings_temporary :
    (∀ (s t : Machine) (cmd : Command), s.Reachable → s.exec cmd = some t →
      ((∀ va, PageTable.isNs (t.pageTable.lookup va) = true → t.pageTable.lookup va = s.pageTable.lookup va) ↔
        ¬s.LeavesNs cmd)) ∧
    ∀ s : Machine, s.ReachableVia (fun s cmd => ¬s.LeavesNs cmd) →
      ∀ va, PageTable.isNs (s.pageTable.lookup va) = false :=
  ⟨fun _ _ _ reached returned => Machine.exec_isNs reached.inv returned, fun _ reached => reached.isNs⟩

open Sample in
omit [Platform] in
/-- A granule is delegated, and no page of the host is mapped. -/
theorem mappings_temporary_delegate : ∃ _ : Platform, ∃ (s t : Machine) (cmd : Command), s.Reachable ∧
    s.exec cmd = some t ∧ t.core.Has (bankAt 0) .delegated ∧
    (∀ va, PageTable.isNs (t.pageTable.lookup va) = true → t.pageTable.lookup va = s.pageTable.lookup va) ∧
    ∀ va, PageTable.isNs (t.pageTable.lookup va) = false := by
  have start := Machine.boot_initial
  have fine : ¬Machine.boot.LeavesNs (.granuleDelegate (BitVec.ofNat 64 (bankAt 0))) := fun ⟨_, _, leaves, _⟩ => leaves
  have returned : Machine.boot.exec (.granuleDelegate (BitVec.ofNat 64 (bankAt 0))) = some _ :=
    Machine.exec_next (by decide +kernel)
  exact ⟨platform, .boot, _, _, .initial start, returned, by decide +kernel,
    (Machine.mappings_temporary.1 _ _ _ (.initial start) returned).mpr fine,
    Machine.mappings_temporary.2 _ (.command (.initial start) _ fine returned)⟩

open Sample in
omit [Platform] in
/-- REC_CREATE is given a delegated granule for its parameters, and the granule is mapped as non-secure from then on. -/
theorem mapping_left : ∃ _ : Platform, ∃ (s t : Machine) (cmd : Command), s.Reachable ∧ s.exec cmd = some t ∧
    t.core.Has (bankAt 0) .delegated ∧ PageTable.isNs (t.pageTable.lookup (bankAt 0)) = true ∧
    t.pageTable.lookup (bankAt 0) ≠ s.pageTable.lookup (bankAt 0) := by
  exact ⟨platform, granted, _, misread, granted_via.reachable, Machine.exec_next (by decide +kernel), by decide +kernel,
    by decide +kernel, by decide +kernel⟩

end Islet.Rmm
