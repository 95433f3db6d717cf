import Islet.Rmm.Progress

/-! The unprotected half of a realm's IPA space, which the host maps as it likes: what
it maps reads back and can be unmapped, and where nothing is mapped it can map again.
Both hold up to a limit of the encoding. Blocks of a gigabyte are stored, but no
question about descriptors knows them; and there are two ways to write that nothing is
mapped, of which RTT_MAP_UNPROTECTED takes one. -/

namespace Islet.Rmm

open Lib Prog Bits Rmi Stage2Translation

variable [Platform] {s t u : Machine} {rd ipa level host : Word} {e : Word}

/-- RTT_READ_ENTRY comes to the level asked for, and reports this state and this descriptor. -/
def Machine.ReadsBack (t : Machine) (rd ipa level : Word) (state : Nat) (desc : Word) : Prop :=
  ∃ u, t.Succeeds (.rttReadEntry rd ipa level) u ∧ u.ret 1 = level.toNat ∧ u.ret 2 = state ∧ u.ret 3 = desc.toNat

/-- RTT_UNMAP_UNPROTECTED leaves the entry unassigned, and everything else as it is. -/
def Machine.Unmaps (t : Machine) (rd ipa level : Word) : Prop :=
  ∃ u, t.Succeeds (.rttUnmapUnprotected rd ipa level) u ∧ u.ReadsBack rd ipa level Rtt.rmiUnassigned 0 ∧
    LeavesKept t.core u.core rd.toNat ipa.toNat (ipa.toNat + 2 ^ (39 - 9 * level.toNat))

/-! ### Reading an entry -/

/-- A read at the level of an existing entry reports that entry. -/
theorem HasRead.entry {c : Core} {a ipa level : Nat} (read : HasRead c a ipa level t) (inv : c.Inv)
    (entry : c.forest.entry a level (ipa / 4096 / 512 ^ (3 - level)) = some e) :
    ∃ view, Rtt.entryView e level = some view ∧ Reports t level view := by
  obtain ⟨desc, slot, last, view, realm, accepted, reached, known, reports⟩ := read.found
  obtain ⟨high, _⟩ := isValidRttCmd_spec (inv.realms.shape realm) accepted
  obtain ⟨rfl, rfl⟩ := reached.stands realm high entry
  exact ⟨view, known, reports⟩

/-- A read that comes to the level asked for has found the entry there. -/
theorem HasRead.of_level {c : Core} {a ipa level : Nat} (read : HasRead c a ipa level t)
    (stands : t.ret 1 = level) : ∃ e view,
      c.forest.entry a level (ipa / 4096 / 512 ^ (3 - level)) = some e ∧ Rtt.entryView e level = some view ∧
        Reports t level view := by
  obtain ⟨desc, slot, last, view, realm, accepted, reached, known, reports⟩ := read.found
  obtain rfl : last = level := reports.level.symm.trans stands
  exact ⟨_, view, reached.entry, known, reports⟩

theorem Machine.Succeeds.hasRead (done : s.Succeeds (.rttReadEntry rd ipa level) t) (inv : s.core.Inv) :
    HasRead s.core rd.toNat ipa.toNat level.toNat t :=
  (done.post (rttReadEntry_spec (s := s.start) (.rttReadEntry rd ipa level) inv rfl)).2

section Entry

variable {desc : Rd} (inv : s.core.Inv) (realm : s.core.realm? rd.toNat = some desc)
  (accepted : isValidRttCmd desc ipa.toNat level.toNat = true)
  (entry : s.core.forest.entry rd.toNat level.toNat (ipa.toNat / 4096 / 512 ^ (3 - level.toNat)) = some e)

include inv realm accepted entry in
/-- RTT_READ_ENTRY reports every entry whose state it can tell. -/
theorem Machine.readsBack {view : Nat × Word × Nat} (known : Rtt.entryView e level.toNat = some view) :
    s.ReadsBack rd ipa level view.1 view.2.1 := by
  obtain ⟨t, done, read⟩ := Machine.readsEntry rd ipa level inv ⟨desc, realm, accepted, e, entry, by rw [known]; nofun⟩
  obtain ⟨view', known', reports⟩ := read.entry inv entry
  cases known.symm.trans known'
  exact ⟨t, done, reports.level, reports.state, reports.desc⟩

include inv entry in
theorem Machine.ReadsBack.entryView {state : Nat} {d : Word} (reads : s.ReadsBack rd ipa level state d) :
    ∃ view, Rtt.entryView e level.toNat = some view ∧ view.1 = state := by
  obtain ⟨t, done, _, state, _⟩ := reads
  obtain ⟨view, known, reports⟩ := (done.hasRead inv).entry inv entry
  exact ⟨view, known, reports.state.symm.trans state⟩

end Entry

/-! ### Mapping and unmapping -/

theorem Machine.Succeeds.hasMapped (done : s.Succeeds (.rttMapUnprotected rd ipa level host) t) (inv : s.core.Inv) :
    HasMapped s.core t.core rd.toNat ipa.toNat level.toNat host :=
  (done.post (rttMapUnprotected_spec (s := s.start) rd ipa level inv rfl rfl rfl)).2

omit [Platform] in
/-- Mapped pages, and blocks of two megabytes, are seen to be mapped. -/
theorem Rtt.isAssignedNs_unprotectedDesc {host : Word} {level : Nat} (accepted : S2tte.isHostNsValid host level = true)
    (levels : level = 2 ∨ level = 3) : S2tte.isAssignedNs (Rtt.unprotectedDesc host level) level = true := by
  obtain ⟨pa, view⟩ := Rtt.view_unprotectedDesc accepted
  obtain ⟨ns, _, _, _, leaf⟩ := S2tte.ns_of_view view
  rw [S2tte.isAssignedNs_iff]
  omega

section Mapped

variable (mapped : HasMapped s.core t.core rd.toNat ipa.toNat level.toNat host) (inv : t.core.Inv)

include mapped inv

theorem HasMapped.readsBack (levels : level.toNat = 2 ∨ level.toNat = 3) :
    t.ReadsBack rd ipa level Rtt.rmiAssigned host := by
  obtain ⟨desc, realm, accepted, _⟩ := mapped.realm
  obtain ⟨_, _, replaced⟩ := mapped.replaced
  have known := Rtt.entryView_of_isAssignedNs (Rtt.isAssignedNs_unprotectedDesc mapped.accepted levels)
  rw [Rtt.getMasked_unprotectedDesc mapped.accepted levels] at known
  exact Machine.readsBack inv ((replaced.realms _).trans realm) accepted replaced.after known

theorem HasMapped.unmaps (levels : level.toNat = 2 ∨ level.toNat = 3) : t.Unmaps rd ipa level := by
  obtain ⟨desc, realm, accepted, outside⟩ := mapped.realm
  obtain ⟨_, _, replaced⟩ := mapped.replaced
  have realm' := (replaced.realms rd.toNat).trans realm
  obtain ⟨u, done, old, _, unmapped, _⟩ := Machine.unmapsUnprotected rd ipa level inv
    ⟨by omega, desc, realm', accepted, outside, _, replaced.after,
      Rtt.isAssignedNs_unprotectedDesc mapped.accepted levels⟩
  refine ⟨u, done, ?_, unmapped.kept⟩
  exact Machine.readsBack (Machine.Step.inv (.command _ done.exec) inv) ((unmapped.realms _).trans realm') accepted
    unmapped.after (Rtt.entryView_of_isUnassignedNs (by decide))

/-- A block of a gigabyte reads as unassigned. -/
theorem HasMapped.reads_huge (huge : level.toNat = 1) {state : Nat} {d : Word}
    (reads : t.ReadsBack rd ipa level state d) : state = Rtt.rmiUnassigned := by
  obtain ⟨_, _, replaced⟩ := mapped.replaced
  obtain ⟨pa, view⟩ := Rtt.view_unprotectedDesc mapped.accepted
  obtain ⟨_, _, _, _, leaf⟩ := S2tte.ns_of_view view
  obtain ⟨seen, known, same⟩ := reads.entryView inv replaced.after
  rw [huge] at known leaf
  rw [Rtt.entryView_of_huge (by omega)] at known
  cases known
  exact same.symm

end Mapped

/-! ### A table over unprotected pages -/

/-! ### There and back -/

/-- What RTT_MAP_UNPROTECTED has mapped reads back as the host gave it, can be unmapped, and neither affects another
IPA, except that a block of a gigabyte does not. -/
theorem Machine.Reachable.unprotected_round_trip (reached : s.Reachable)
    (done : s.Succeeds (.rttMapUnprotected rd ipa level host) t) :
    (LeavesKept s.core t.core rd.toNat ipa.toNat (ipa.toNat + 2 ^ (39 - 9 * level.toNat)) ∧
      t.ReadsBack rd ipa level Rtt.rmiAssigned host ∧ t.Unmaps rd ipa level) ↔ level.toNat ≠ 1 := by
  have mapped := done.hasMapped reached.inv
  have inv := (reached.succeeds done).inv
  constructor
  · rintro ⟨_, reads, _⟩ huge
    exact nomatch mapped.reads_huge inv huge reads
  · intro small
    obtain ⟨_, low, high⟩ := Rtt.host_descriptor mapped.accepted
    obtain ⟨_, _, replaced⟩ := mapped.replaced
    have levels : level.toNat = 2 ∨ level.toNat = 3 := by omega
    exact ⟨replaced.kept, mapped.readsBack inv levels, mapped.unmaps inv levels⟩

open Sample in
omit [Platform] in
/-- A block of two megabytes is mapped, read back and unmapped. -/
theorem unprotected_round_trip_block : ∃ _ : Platform, ∃ s t : Machine, s.Reachable ∧
    s.Succeeds (.rttMapUnprotected (BitVec.ofNat 64 (bankAt 0)) 0x4000000000#64 2 0) t ∧
    t.ReadsBack (BitVec.ofNat 64 (bankAt 0)) 0x4000000000#64 2 Rtt.rmiAssigned 0 ∧
    t.Unmaps (BitVec.ofNat 64 (bankAt 0)) 0x4000000000#64 2 := by
  have done : outer.Succeeds (.rttMapUnprotected (BitVec.ofNat 64 (bankAt 0)) 0x4000000000#64 2 0) _ :=
    Machine.succeeds_of_result (by decide +kernel)
  exact ⟨platform, outer, _, outer_via.reachable, done,
    ((outer_via.reachable.unprotected_round_trip done).mpr (by decide)).2⟩

open Sample in
omit [Platform] in
/-- A block of a gigabyte is mapped, but does not read back, and is not unmapped. -/
theorem unprotected_block_stays : ∃ _ : Platform, ∃ s t : Machine, s.Reachable ∧
    s.Succeeds (.rttMapUnprotected (BitVec.ofNat 64 (bankAt 0)) 0x4000000000#64 1 0) t ∧
    ¬t.ReadsBack (BitVec.ofNat 64 (bankAt 0)) 0x4000000000#64 1 Rtt.rmiAssigned 0 ∧
    ¬t.Unmaps (BitVec.ofNat 64 (bankAt 0)) 0x4000000000#64 1 := by
  refine ⟨platform, created, _, created_via.reachable, Machine.succeeds_of_result (by decide +kernel), ?_, ?_⟩
  · rintro ⟨u, read, _, state, _⟩
    rw [← read.result.2] at state
    exact absurd state (by decide +kernel)
  · rintro ⟨u, unmapped, _⟩
    exact absurd unmapped.result.1 (by decide +kernel)

open Sample in
omit [Platform] in
/-- Where nothing is mapped, nothing is unmapped. -/
example : ∃ _ : Platform, (outer.handle (.rttUnmapUnprotected (BitVec.ofNat 64 (bankAt 0)) 0x4000000000 2)).1 ≠ .ok () :=
  ⟨platform, by decide +kernel⟩

/-! ### Two encodings -/

/-- The entry of an unprotected address that reads as unassigned is so in one of the two encodings. -/
theorem Machine.ReadsBack.unassigned {desc : Rd} {d : Word} (reads : s.ReadsBack rd ipa level Rtt.rmiUnassigned d)
    (inv : s.core.Inv) (realm : s.core.realm? rd.toNat = some desc) (outside : ¬desc.addrInPar ipa.toNat = true)
    (levels : level.toNat = 2 ∨ level.toNat = 3) :
    isValidRttCmd desc ipa.toNat level.toNat = true ∧
      ∃ e, s.core.forest.entry rd.toNat level.toNat (ipa.toNat / 4096 / 512 ^ (3 - level.toNat)) = some e ∧
        (S2tte.isUnassigned e = true ∨ S2tte.isUnassignedNs e = true) := by
  obtain ⟨t, done, stands, state, _⟩ := reads
  have read := done.hasRead inv
  obtain ⟨e, view, entry, known, reports⟩ := read.of_level stands
  obtain ⟨desc', _, _, _, realm', accepted, _⟩ := read.found
  cases realm.symm.trans realm'
  have shape := inv.realms.shape realm
  obtain ⟨high, _, aligned⟩ := isValidRttCmd_spec shape accepted
  refine ⟨accepted, e, entry, ?_⟩
  have zero : view.1 = Rtt.rmiUnassigned := reports.state.symm.trans state
  have low := Forest.top_le_of_node (Forest.node_of_entry entry).choose_spec.1
  rw [Core.forest_top realm] at low
  have unprotected : ¬desc.inPar (ipa.toNat / 4096 / 512 ^ (3 - level.toNat) * 512 ^ (3 - level.toNat)) := by
    rw [half_of_below shape low high (page_aligned high aligned) (Nat.mul_div_cancel _ (Nat.pow_pos (by omega)))]
    exact outside
  rcases unprotected_entry inv realm entry high unprotected with table | fits
  · have kinds := (S2tte.isTable_iff e level.toNat).mp table
    have notUnassigned : ¬S2tte.isUnassigned e = true := by
      rw [S2tte.isUnassigned_iff]
      omega
    have notAssigned : ¬S2tte.isAssigned e = true := by
      rw [S2tte.isAssigned_iff]
      omega
    rw [Rtt.entryView, if_neg notUnassigned, if_neg notAssigned, if_pos table] at known
    cases known
    cases zero
  · cases meaning : S2tte.view level.toNat e with
    | unassigned ripas => exact .inl (S2tte.isUnassigned_of_view meaning).1
    | unassignedNs => exact .inr (S2tte.isUnassignedNs_of_view meaning)
    | ns pa =>
      obtain ⟨ns, _, _, _, leaf⟩ := S2tte.ns_of_view meaning
      have mapped : S2tte.isAssignedNs e level.toNat = true := by
        rw [S2tte.isAssignedNs_iff]
        omega
      rw [Rtt.entryView_of_isAssignedNs mapped] at known
      cases known
      cases zero
    | table addr => rw [meaning] at fits; exact fits.elim
    | assigned pa ripas => rw [meaning] at fits; exact fits.elim
    | ram pa => rw [meaning] at fits; exact fits.elim
    | malformed => rw [meaning] at fits; exact fits.elim

/-- The entry that the address has at this level is there with the NS bit clear. -/
def Core.NsClear (c : Core) (a ipa level : Nat) : Prop :=
  ∃ e, c.forest.entry a level (ipa / 4096 / 512 ^ (3 - level)) = some e ∧ getMaskedValue e S2tte.ns = 0

/-- Where RTT_READ_ENTRY reports that an unprotected page or block is unassigned, RTT_MAP_UNPROTECTED maps it if, and
only if, that is encoded with the NS bit clear. -/
theorem Machine.Reachable.unprotected_mappable {desc : Rd} {d : Word} (reached : s.Reachable)
    (realm : s.core.realm? rd.toNat = some desc) (outside : ¬desc.addrInPar ipa.toNat = true)
    (levels : level.toNat = 2 ∨ level.toNat = 3) (reads : s.ReadsBack rd ipa level Rtt.rmiUnassigned d)
    (accepted : S2tte.isHostNsValid host level.toNat = true) :
    (∃ t, s.Succeeds (.rttMapUnprotected rd ipa level host) t) ↔
      s.core.NsClear rd.toNat ipa.toNat level.toNat := by
  have inv := reached.inv
  obtain ⟨valid, e, entry, kinds⟩ := reads.unassigned inv realm outside levels
  constructor
  · rintro ⟨t, done⟩
    obtain ⟨old, unassigned, replaced⟩ := (done.hasMapped inv).replaced
    exact ⟨old, replaced.before, S2tte.ns_eq.mpr ((S2tte.isUnassigned_iff old).mp unassigned).2.2⟩
  · rintro ⟨e', entry', clear⟩
    cases entry.symm.trans entry'
    have unassigned : S2tte.isUnassigned e = true := by
      refine kinds.resolve_right fun other => ?_
      exact ((S2tte.isUnassignedNs_iff e).mp other).2.2 (S2tte.ns_eq.mp clear)
    obtain ⟨t, done, _⟩ := Machine.mapsUnprotected rd ipa level host inv
      ⟨accepted, desc, realm, valid, outside, e, entry, unassigned⟩
    exact ⟨t, done⟩

open Sample in
omit [Platform] in
/-- An entry that has never been mapped can be. -/
theorem unprotected_mappable_first : ∃ _ : Platform, ∃ s t : Machine, s.Reachable ∧
    s.ReadsBack (BitVec.ofNat 64 (bankAt 0)) 0x4000000000#64 2 Rtt.rmiUnassigned 0 ∧
    s.Succeeds (.rttMapUnprotected (BitVec.ofNat 64 (bankAt 0)) 0x4000000000#64 2 0) t := by
  obtain ⟨desc, realm, half⟩ := (Option.any_eq_true (fun rd => !rd.addrInPar 0x4000000000)
    (outer.core.realm? (bankAt 0))).mp (by decide +kernel)
  have reads : outer.ReadsBack (BitVec.ofNat 64 (bankAt 0)) 0x4000000000#64 2 Rtt.rmiUnassigned 0 :=
    ⟨_, Machine.succeeds_of_result (by decide +kernel), by decide +kernel, by decide +kernel, by decide +kernel⟩
  have named : outer.core.realm? (BitVec.ofNat 64 (bankAt 0)).toNat = some desc := realm
  obtain ⟨t, done⟩ := (outer_via.reachable.unprotected_mappable named (by simpa using half) (.inl rfl) reads
    (show S2tte.isHostNsValid 0 2 = true by decide)).mpr ⟨0, by decide +kernel, by decide⟩
  exact ⟨platform, outer, t, outer_via.reachable, reads, done⟩

open Sample in
omit [Platform] in
/-- An entry that has been unmapped reads as unassigned, and cannot be mapped again. -/
theorem unprotected_unmappable : ∃ _ : Platform, ∃ s : Machine, s.Reachable ∧
    s.ReadsBack (BitVec.ofNat 64 (bankAt 0)) 0x4000000000#64 2 Rtt.rmiUnassigned 0 ∧
    S2tte.isHostNsValid 0 2 = true ∧
    ∀ t, ¬s.Succeeds (.rttMapUnprotected (BitVec.ofNat 64 (bankAt 0)) 0x4000000000#64 2 0) t := by
  let s := Machine.prepared (Action.delegates 3 ++ Action.newRealm 1 39 ++ [Action.newTable 2 0x4000000000 2,
    .call (.rttMapUnprotected (BitVec.ofNat 64 (bankAt 0)) 0x4000000000#64 2 0),
    .call (.rttUnmapUnprotected (BitVec.ofNat 64 (bankAt 0)) 0x4000000000#64 2)])
  refine ⟨platform, s, (Machine.prepared_via _).reachable, ?_, by decide, fun t done => ?_⟩
  · exact ⟨_, Machine.succeeds_of_result (by decide +kernel), by decide +kernel, by decide +kernel, by decide +kernel⟩
  · exact absurd done.result.1 (by decide +kernel)

end Islet.Rmm
