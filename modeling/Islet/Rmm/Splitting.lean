import Islet.Rmm.Unprotected

/-! RTT_CREATE against the address space: the table that replaces an entry says about every page what the entry said.
That is so for the state, the granule and the security state of the page, but not for the access attributes of an entry
that is mapped, of which `create` copies a part. -/

namespace Islet.Rmm

open Lib Prog Bits Rmi Stage2Translation

variable [Platform] {s t : Machine} {rd : Rd} {a g ipa level : Nat} {parent flags pa : Word} {step : Nat}

/-! ### Access attributes -/

/-- The access flag, execute-never, the shareability, the access permissions and the memory attributes. -/
def S2tte.accessAttr : Word := S2tte.af ||| S2tte.xn ||| S2tte.sh ||| S2tte.s2ap ||| S2tte.memattr

/-- The access attributes that `create` does not take over from an entry that is mapped. From RAM it takes the fields
that entries have that are not mapped, which end with the lower bit of the access permissions. -/
def Rtt.lostAttr (parent : Word) (level : Nat) : Word :=
  if S2tte.isAssignedRam parent level then S2tte.af ||| S2tte.xn ||| S2tte.sh ||| defineMask 7 7
  else S2tte.af ||| S2tte.xn

namespace Rtt

omit [Platform] in
theorem accessAttr_tablePage {i : Nat} (page : S2tte.IsPage (pa + BitVec.ofNat 64 (i * step))) :
    getMasked (tablePage flags pa step i) S2tte.accessAttr = getMasked flags S2tte.accessAttr := by
  have address : getMasked (pa + BitVec.ofNat 64 (i * step)) S2tte.accessAttr = 0#64 := page.and_attr (by decide)
  unfold tablePage
  dsimp only
  rw [getMasked_or, getMasked_or, address, BitVec.zero_or, BitVec.zero_or]

omit [Platform] in
theorem accessAttr_leafDescType (level : Nat) : getMasked (leafDescType level) S2tte.accessAttr = 0#64 := by
  rw [leafDescType_eq]
  split
  · decide
  · decide

omit [Platform] in
/-- The entries of the new table have the access attributes of a mapped parent exactly if it has none of those that are
lost. -/
theorem accessAttr_split {i : Nat} (high : level ≤ 3) (index : i < 512)
    (split : splitOf parent level (2 ^ (39 - 9 * level)) = some (flags, pa, step))
    (mapped : ∃ pa, S2tte.view (level - 1) parent = .ram pa ∨ S2tte.view (level - 1) parent = .ns pa) :
    getMasked (tablePage flags pa step i) S2tte.accessAttr = getMasked parent S2tte.accessAttr ↔
      getMasked parent (lostAttr parent (level - 1)) = 0#64 := by
  rcases splitOf_cases split with ⟨holds, _⟩ | ⟨holds, deeper, _⟩ | ⟨ram, deeper, cut⟩ | ⟨holds, _⟩ |
    ⟨mapsNs, deeper, cut⟩
  · simp [S2tte.view_of_isUnassigned holds] at mapped
  · simp [S2tte.view_of_isAssigned holds (show 1 ≤ level - 1 by omega) (by omega)] at mapped
  · cases cut
    rw [accessAttr_tablePage (split_address parent deeper high index).1, getMasked_or, accessAttr_leafDescType,
      BitVec.or_zero, lostAttr, if_pos ram]
    have kept : getMasked (getMasked parent (S2tte.invalidHipas ||| S2tte.invalidRipas)) S2tte.accessAttr =
        getMasked parent (S2tte.invalidHipas ||| S2tte.invalidRipas) := by
      unfold getMasked
      rw [BitVec.and_assoc, show (S2tte.invalidHipas ||| S2tte.invalidRipas) &&& S2tte.accessAttr =
        S2tte.invalidHipas ||| S2tte.invalidRipas by decide]
    rw [kept, ← getMasked_eq_or_iff (show (S2tte.invalidHipas ||| S2tte.invalidRipas) &&& _ = 0#64 by decide)]
    rw [show S2tte.invalidHipas ||| S2tte.invalidRipas ||| (S2tte.af ||| S2tte.xn ||| S2tte.sh ||| defineMask 7 7) =
      S2tte.accessAttr by decide]
  · simp [S2tte.view_of_isUnassignedNs holds] at mapped
  · cases cut
    have notRam : ¬S2tte.isAssignedRam parent (level - 1) = true := by
      rw [S2tte.isAssignedRam_iff]
      rw [S2tte.isAssignedNs_iff] at mapsNs
      omega
    have kept : getMasked (getMasked parent (S2tte.memattr ||| S2tte.s2ap ||| S2tte.sh)) S2tte.accessAttr =
        getMasked parent (S2tte.memattr ||| S2tte.s2ap ||| S2tte.sh) := by
      unfold getMasked
      rw [BitVec.and_assoc, show (S2tte.memattr ||| S2tte.s2ap ||| S2tte.sh) &&& S2tte.accessAttr =
        S2tte.memattr ||| S2tte.s2ap ||| S2tte.sh by decide]
    rw [accessAttr_tablePage (split_address parent deeper high index).1, getMasked_or, accessAttr_leafDescType,
      BitVec.or_zero, getMasked_or, show getMasked (bitsInReg S2tte.ns 1) S2tte.accessAttr = 0#64 by decide,
      BitVec.zero_or, kept, lostAttr, if_neg notRam,
      ← getMasked_eq_or_iff (show (S2tte.memattr ||| S2tte.s2ap ||| S2tte.sh) &&& _ = 0#64 by decide),
      show S2tte.memattr ||| S2tte.s2ap ||| S2tte.sh ||| (S2tte.af ||| S2tte.xn) = S2tte.accessAttr by decide]

end Rtt

/-! ### The new table -/

section Split

variable {c c' : Core} (split : SplitInto c c' a ipa level parent flags pa step)

include split

/-- The entry that was split was that of all pages of its block. -/
theorem SplitInto.leaf_before (lower : ipa ≤ g * 4096) (upper : g * 4096 < ipa + 2 ^ (39 - 9 * (level - 1))) :
    c.forest.Leaf 3 a g (level - 1) parent := by
  have high := split.high
  refine ⟨by omega, ?_, forest_next_none split.leaf⟩
  rw [block_of_bounds (by omega) split.aligned lower upper]
  exact split.before

/-- Each page of the block has its entry in the new table. -/
theorem SplitInto.leaf_after (lower : ipa ≤ g * 4096) (upper : g * 4096 < ipa + 2 ^ (39 - 9 * (level - 1))) :
    c'.forest.Leaf 3 a g level (Rtt.tablePage flags pa step (g / 512 ^ (3 - level) % 512)) ∧
      S2tte.view level (Rtt.tablePage flags pa step (g / 512 ^ (3 - level) % 512)) =
        (S2tte.view (level - 1) parent).at_ (g / 512 ^ (3 - level) % 512 * 512 ^ (3 - level)) := by
  have low := split.low
  have high := split.high
  have index : g / 512 ^ (3 - level) % 512 < 512 := Nat.mod_lt _ (by omega)
  have view := Rtt.view_tablePage low high split.split index
  refine ⟨⟨high, ?_, forest_next_none (isTable_of_view_ne ?_)⟩, view⟩
  · have block := block_of_bounds (show level - 1 ≤ 3 by omega) split.aligned lower upper
    have parts : 512 ^ (3 - (level - 1)) = 512 ^ (3 - level) * 512 := by
      rw [← Nat.pow_succ]
      congr 1
      omega
    have stored := split.after _ index
    rw [← block] at stored
    rw [parts, ← Nat.div_div_eq_div_mul] at stored
    rwa [Nat.div_add_mod'] at stored
  · rw [view]
    have plain := split.leaf
    cases old : S2tte.view (level - 1) parent with
    | table addr =>
      rw [(S2tte.isTable_of_view old).1] at plain
      exact nomatch plain
    | unassigned ripas => rfl
    | assigned pa ripas => rfl
    | ram pa => rfl
    | unassignedNs => rfl
    | ns pa => rfl
    | malformed => rfl

end Split

/-- RTT_CREATE has put entries in the place of the one above that say the same about every page. -/
structure Machine.SplitKeeps (s t : Machine) (a ipa level : Nat) : Prop where
  pages : ∀ {g}, ipa ≤ g * 4096 → g * 4096 < ipa + 2 ^ (39 - 9 * (level - 1)) →
    ∃ parent e, s.core.forest.Leaf 3 a g (level - 1) parent ∧ t.core.forest.Leaf 3 a g level e ∧
      (S2tte.view level e).at_ (g % 512 ^ (3 - level)) =
        (S2tte.view (level - 1) parent).at_ (g % 512 ^ (3 - (level - 1))) ∧
      ((∃ pa, S2tte.view (level - 1) parent = .ram pa ∨ S2tte.view (level - 1) parent = .ns pa) →
        getMasked e S2tte.accessAttr = getMasked parent S2tte.accessAttr)
  others : LeavesKept s.core t.core a ipa (ipa + 2 ^ (39 - 9 * (level - 1)))

/-- The entry above is mapped and has access attributes that `create` does not take over. -/
def Core.SplitLoses (c : Core) (a ipa level : Nat) : Prop :=
  ∃ parent, c.forest.entry a (level - 1) (ipa / 4096 / 512 ^ (3 - (level - 1))) = some parent ∧
    (∃ pa, S2tte.view (level - 1) parent = .ram pa ∨ S2tte.view (level - 1) parent = .ns pa) ∧
    getMasked parent (Rtt.lostAttr parent (level - 1)) ≠ 0#64

/-- A successful RTT_CREATE preserves the address space, exactly if the entry that it splits is not mapped with access
attributes that are lost. -/
theorem Machine.Reachable.split_keeps {rdW rttW ipaW levelW : Word} (reached : s.Reachable)
    (done : s.Succeeds (.rttCreate rdW rttW ipaW levelW) t) :
    s.SplitKeeps t rdW.toNat ipaW.toNat levelW.toNat ↔ ¬s.core.SplitLoses rdW.toNat ipaW.toNat levelW.toNat := by
  have spec : wp (Rmi.rttCreate rdW.toNat rttW.toNat ipaW.toNat levelW.toNat) _ _ s.start :=
    rttCreate_spec (.rttCreate rdW rttW ipaW levelW) reached.inv rfl
  obtain ⟨_, _, parent, flags, pa, step, split, _⟩ := done.post spec
  generalize rdW.toNat = a at split ⊢
  generalize ipaW.toNat = ipa at split ⊢
  generalize levelW.toNat = level at split ⊢
  have index : ∀ g, g / 512 ^ (3 - level) % 512 < 512 := fun g => Nat.mod_lt _ (by omega)
  constructor
  · rintro keeps ⟨parent', before, mapped, lost⟩
    cases split.before.symm.trans before
    -- the first page of the block shows the loss
    have aligned := page_aligned (show level - 1 ≤ 3 by have := split.high; omega) split.aligned
    have wide : 0 < 2 ^ (39 - 9 * (level - 1)) := Nat.two_pow_pos _
    obtain ⟨parent', e, old, new, _, same⟩ := keeps.pages (g := ipa / 4096) (by omega) (by omega)
    obtain ⟨_, rfl⟩ := old.unique (split.leaf_before (g := ipa / 4096) (by omega) (by omega))
    obtain ⟨leaf, _⟩ := split.leaf_after (g := ipa / 4096) (by omega) (by omega)
    obtain ⟨_, rfl⟩ := new.unique leaf
    exact lost ((Rtt.accessAttr_split split.high (index _) split.split mapped).mp (same mapped))
  · intro keeps
    refine ⟨fun {g} lower upper => ?_, split.kept⟩
    obtain ⟨leaf, view⟩ := split.leaf_after lower upper
    refine ⟨parent, _, split.leaf_before lower upper, leaf, ?_, fun mapped => ?_⟩
    · rw [view, View.at_at]
      have offset := offset_split (g := g) (l := level - 1) (by have := split.high; have := split.low; omega)
      rw [Nat.sub_add_cancel split.low] at offset
      rw [offset]
    · refine (Rtt.accessAttr_split split.high (index g) split.split mapped).mpr ?_
      by_contra lost
      exact keeps ⟨parent, split.before, mapped, lost⟩

open Sample in
omit [Platform] in
/-- The first table below the root replaces an entry that is not mapped. -/
theorem split_keeps_first : ∃ _ : Platform, ∃ (s t : Machine) (rdW rttW : Word), s.Reachable ∧
    s.Succeeds (.rttCreate rdW rttW 0#64 2#64) t ∧ ¬s.core.SplitLoses rdW.toNat 0 2 ∧ s.SplitKeeps t rdW.toNat 0 2 := by
  have reached := created_via.reachable
  have done : created.Succeeds (.rttCreate (BitVec.ofNat 64 (bankAt 0)) (BitVec.ofNat 64 (bankAt 2)) 0#64 2#64) _ :=
    Machine.succeeds_of_result (by decide +kernel)
  have keeps : ¬created.core.SplitLoses (BitVec.ofNat 64 (bankAt 0)).toNat 0 2 := by
    rintro ⟨parent, before, ⟨pa, mapped⟩, _⟩
    cases (show created.core.forest.entry (bankAt 0) 1 0 = some 0 by decide +kernel).symm.trans before
    rw [S2tte.view_of_isUnassigned (by decide)] at mapped
    exact mapped.elim nofun nofun
  exact ⟨platform, created, _, _, _, reached, done, keeps, (reached.split_keeps done).mpr keeps⟩

open Sample in
omit [Platform] in
/-- A block of two megabytes that the host has mapped is split, and loses the access flag and execute-never. -/
theorem split_loses_block : ∃ _ : Platform, ∃ (s t : Machine) (rdW rttW parent e : Word), s.Reachable ∧
    s.Succeeds (.rttCreate rdW rttW 0x4000000000#64 3#64) t ∧
    s.core.forest.Leaf 3 rdW.toNat 0x4000000 2 parent ∧ S2tte.isAssignedNs parent 2 = true ∧
    t.core.forest.Leaf 3 rdW.toNat 0x4000000 3 e ∧
    getMasked e S2tte.accessAttr ≠ getMasked parent S2tte.accessAttr := by
  refine ⟨platform, mapped, _, BitVec.ofNat 64 (bankAt 0), BitVec.ofNat 64 (bankAt 3), Rtt.unprotectedDesc 0 2,
    0x80000000000003, mapped_via.reachable, Machine.succeeds_of_result (by decide +kernel),
    ⟨by decide, by decide +kernel, by decide +kernel⟩, by decide, ⟨by decide, by decide +kernel, by decide +kernel⟩, by decide⟩

end Islet.Rmm
