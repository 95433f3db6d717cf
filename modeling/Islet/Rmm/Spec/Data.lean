import Islet.Rmm.Spec.Gpt

/-! DATA_CREATE, DATA_CREATE_UNKNOWN and DATA_DESTROY, and what the commands on
tables share: the checks of their arguments and the places their walks end at. -/

namespace Islet.Rmm

open Lib Prog Bits Rmi Stage2Translation

/-! ### Checks of arguments -/

section Arguments

variable {rd : Rd} {ipa level : Nat}

theorem isValidRttCmd_spec (shape : rd.Shape) (accepted : isValidRttCmd rd ipa level = true) :
    level ≤ 3 ∧ ipa < rd.ipaSize ∧ ipa % 2 ^ (39 - 9 * level) = 0 := by
  simp only [isValidRttCmd, Bool.and_eq_true, decide_eq_true_eq, beq_iff_eq] at accepted
  obtain ⟨⟨bound, inside⟩, kept⟩ := accepted
  change level ≤ 3 at bound
  have small : ipa < 2 ^ 48 := Nat.lt_of_lt_of_le inside (Nat.pow_le_pow_right (by omega) shape.bits)
  have word : (BitVec.ofNat 64 ipa).toNat = ipa := by
    rw [BitVec.toNat_ofNat]
    omega
  refine ⟨bound, inside, ?_⟩
  have address : ∀ lo, lo ≤ 47 → BitVec.ofNat 64 ipa &&& defineMask 47 lo = BitVec.ofNat 64 ipa →
      ipa % 2 ^ lo = 0 := by
    intro lo low same
    have value := congrArg BitVec.toNat same
    rw [word] at value
    have masked := @S2tte.toNat_getMasked_address (BitVec.ofNat 64 ipa) lo low
    rw [word] at masked
    rw [getMasked] at masked
    rw [← value, masked, Nat.mul_mod_left]
  obtain rfl | rfl | rfl | rfl : level = 0 ∨ level = 1 ∨ level = 2 ∨ level = 3 := by omega
  · exact address 39 (by omega) kept
  · exact address 30 (by omega) kept
  · exact address 21 (by omega) kept
  · exact address 12 (by omega) kept

theorem isValidTableCmd_spec (shape : rd.Shape) (accepted : isValidTableCmd rd ipa level = true) :
    rd.s2StartingLevel < level ∧ level ≤ 3 ∧ ipa < rd.ipaSize ∧ ipa % 2 ^ (39 - 9 * (level - 1)) = 0 := by
  simp only [isValidTableCmd, Bool.not_eq_true', Bool.or_eq_false_iff, decide_eq_false_iff_not,
    Bool.not_eq_false'] at accepted
  obtain ⟨⟨low, high⟩, valid⟩ := accepted
  change ¬3 < level at high
  obtain ⟨_, inside, aligned⟩ := isValidRttCmd_spec shape valid
  exact ⟨by omega, by omega, inside, aligned⟩

theorem validateIpa_spec (shape : rd.Shape) (accepted : validateIpa rd ipa = true) :
    ipa < rd.ipaSize ∧ ipa % 4096 = 0 ∧ rd.inPar (ipa / 4096) := by
  simp only [validateIpa, Bool.and_eq_true] at accepted
  obtain ⟨⟨_, inside⟩, valid⟩ := accepted
  obtain ⟨_, small, aligned⟩ := isValidRttCmd_spec shape valid
  simp only [S2tte.rttPageLevel] at aligned
  refine ⟨small, by simpa using aligned, ?_⟩
  simp only [Rd.addrInPar, decide_eq_true_eq] at inside
  unfold Rd.inPar
  omega

theorem Rd.Shape.isValidRttCmd_page (shape : rd.Shape) {w : Word} (aligned : w.toNat % 4096 = 0)
    (inside : w.toNat < rd.ipaSize) : isValidRttCmd rd w.toNat S2tte.rttPageLevel = true := by
  have page : S2tte.IsPage w := ⟨aligned, inside.trans_le (Nat.pow_le_pow_right (by omega) shape.bits)⟩
  simp [isValidRttCmd, S2tte.rttPageLevel, inside, S2tte.levelMask, page.and_addr]

/-- The alignment and the range are all that `validate_ipa` asks for. -/
theorem Rd.Shape.validateIpa (shape : rd.Shape) {w : Word} (aligned : w.toNat % 4096 = 0)
    (inPar : rd.addrInPar w.toNat = true) : Rmi.validateIpa rd w.toNat = true := by
  have below : w.toNat < rd.parSize := by simpa [Rd.addrInPar] using inPar
  have accepted := shape.isValidRttCmd_page aligned (below.trans_le (Nat.div_le_self _ _))
  simp [Rmi.validateIpa, isGranuleAligned, aligned, inPar, accepted]

end Arguments

variable [Platform] {cmd : Command} {s : Machine} {α : Type} {ok : α → Machine → Prop}
  {err' : Halt → Machine → Prop} {a : Nat} {rd : Rd}

/-! ### Places -/

section Places

variable {c : Core} {g top level last : Nat} {slot : Slot} (reached : Reached c a g top level slot last)

include reached

/-- A walk that ends at a leaf stands at one. -/
theorem Reached.leafAt (leaf : S2tte.isTable (pte c slot) last = false) :
    LeafAt c a last (g / 512 ^ (3 - last) / 512) slot.table slot.index := by
  refine ⟨reached.place, ?_, leaf⟩
  rw [reached.index]
  exact Nat.mod_lt _ (by omega)

theorem Reached.below : Below last (g / 512 ^ (3 - last) / 512) slot.index g := by
  unfold Below
  rw [reached.index]
  omega

theorem Reached.slot_eq : slot = ⟨slot.table, g / 512 ^ (3 - last) % 512⟩ := by
  rw [← reached.index]

omit reached in
omit [Platform] in
theorem isTable_bottom (e : Word) : S2tte.isTable e 3 = false := by
  simp [S2tte.isTable]

omit reached in
omit [Platform] in
/-- An entry of the bottom level is for one page. -/
theorem below_bottom {g' : Nat} (below : Below 3 (g / 512) (g % 512) g') : g' = g := by
  unfold Below at below
  simp only [Nat.sub_self, Nat.pow_zero, Nat.div_one] at below
  omega

omit reached in
theorem LeafAt.page_bottom {b : Nat} (here : LeafAt c a 3 (g / 512) b (g % 512)) (realms : c.RealmInv) :
    c.Page a g (S2tte.view 3 (c.forest.read b (g % 512))) := by
  have page := here.page realms (show Below 3 (g / 512) (g % 512) g by unfold Below; simp; omega)
  simpa [Nat.mod_one] using page

/-- A walk that is asked for a level with an entry there, ends at this entry. -/
theorem Reached.at_entry {e : Word} (below : top ≤ level) (bound : level ≤ 3)
    (entry : c.forest.entry a level (g / 512 ^ (3 - level)) = some e) : last = level ∧ pte c slot = e := by
  obtain ⟨b, place, _⟩ := Forest.node_of_entry entry
  have level : last = level := by
    rcases reached.stop with same | ⟨above, leaf⟩
    · omega
    · have := reached.not_above place bound leaf
      omega
  subst level
  rw [reached.entry] at entry
  exact ⟨rfl, Option.some.inj entry⟩

omit reached in
omit [Platform] in
theorem isTable_of_unassigned {e : Word} {l : Nat} (unassigned : S2tte.isUnassigned e = true) :
    S2tte.isTable e l = false := by
  rw [← Bool.not_eq_true, S2tte.isTable_iff]
  have := (S2tte.isUnassigned_iff e).mp unassigned
  omega

/-- A walk down to the pages ends at a leaf. -/
theorem Reached.leaf (pages : level = 3) (shallow : top ≤ 3) : S2tte.isTable (pte c slot) last = false := by
  rcases reached.stop with same | ⟨_, leaf⟩
  · have bottom : last = 3 := by omega
    rw [bottom]
    exact isTable_bottom _
  · exact leaf

end Places

/-! ### Leaves -/

section Leaves

/-- The entries that walks end at are the same, but for pages of `[low, high)` in the realm at `a`. -/
def LeavesKept (c c' : Core) (a low high : Nat) : Prop :=
  ∀ a' g l e, ¬(a' = a ∧ low ≤ g * 4096 ∧ g * 4096 < high) → (c'.forest.Leaf 3 a' g l e ↔ c.forest.Leaf 3 a' g l e)

theorem LeavesKept.refl (c : Core) (low high : Nat) : LeavesKept c c a low high := fun _ _ _ _ _ => Iff.rfl

theorem LeavesKept.trans {c c' c'' : Core} {low mid high : Nat} (first : LeavesKept c c' a low mid)
    (second : LeavesKept c' c'' a mid high) (lower : low ≤ mid) (upper : mid ≤ high) : LeavesKept c c'' a low high := by
  intro a' g l e outside
  refine (second a' g l e ?_).trans (first a' g l e ?_)
  · exact fun inside => outside ⟨inside.1, lower.trans inside.2.1, inside.2.2⟩
  · exact fun inside => outside ⟨inside.1, inside.2.1, inside.2.2.trans_le upper⟩

theorem LeavesKept.widen {c c' : Core} {low low' high high' : Nat} (kept : LeavesKept c c' a low high) (lower : low' ≤ low)
    (upper : high ≤ high') : LeavesKept c c' a low' high' := fun a' g l e outside =>
  kept a' g l e fun inside => outside ⟨inside.1, lower.trans inside.2.1, inside.2.2.trans_le upper⟩

theorem LeavesKept.of_sameForest {c c' c'' : Core} {low high : Nat} (kept : LeavesKept c c' a low high)
    (same : SameForest c' c'') : LeavesKept c c'' a low high := fun a' g l e outside =>
  (Forest.Leaf.congr (same.entry_eq a') fun _ _ => rfl).trans (kept a' g l e outside)

theorem LeavesKept.after_sameForest {c c' c'' : Core} {low high : Nat} (kept : LeavesKept c' c'' a low high)
    (same : SameForest c c') : LeavesKept c c'' a low high := fun a' g l e outside =>
  (kept a' g l e outside).trans (Forest.Leaf.congr (same.entry_eq a') fun _ _ => rfl)

/-- A store in a table changes what is found for the pages below it only. -/
theorem Written.leavesKept {c c' : Core} {l p b i low high : Nat} {v : Word} (written : Written c c' b i v) (inv : c.Inv)
    (place : c.forest.node a l p = some b) (below : ∀ {g}, Below l p i g → low ≤ g * 4096 ∧ g * 4096 < high) :
    LeavesKept c c' a low high := by
  intro a' g l' e outside
  obtain ⟨_, _, _, bound⟩ := inv.realms.realm_of_node place
  rw [written.leaf_iff]
  exact Forest.leaf_write_other inv.tables.exclusive place bound fun inside => outside ⟨inside.1, below inside.2⟩

omit [Platform] in
/-- Pages below the entry for an aligned address lie in the block that starts there. -/
theorem block_bounds {g addr l : Nat} (high : l ≤ 3) (aligned : addr % 2 ^ (39 - 9 * l) = 0)
    (same : g / 512 ^ (3 - l) = addr / 4096 / 512 ^ (3 - l)) :
    addr ≤ g * 4096 ∧ g * 4096 < addr + 2 ^ (39 - 9 * l) := by
  obtain rfl | rfl | rfl | rfl : l = 0 ∨ l = 1 ∨ l = 2 ∨ l = 3 := by omega
  all_goals
    norm_num at aligned same ⊢
    omega

omit [Platform] in
/-- A page in the block that starts at an aligned address is below the entry for that address. -/
theorem block_of_bounds {g addr l : Nat} (high : l ≤ 3) (aligned : addr % 2 ^ (39 - 9 * l) = 0)
    (lower : addr ≤ g * 4096) (upper : g * 4096 < addr + 2 ^ (39 - 9 * l)) :
    g / 512 ^ (3 - l) = addr / 4096 / 512 ^ (3 - l) := by
  obtain rfl | rfl | rfl | rfl : l = 0 ∨ l = 1 ∨ l = 2 ∨ l = 3 := by omega
  all_goals
    norm_num at aligned upper ⊢
    omega

/-- The leaf that `ipa` has at `level` was `old` and is now `new`, and nothing else about pages has changed. -/
structure Replaced (c c' : Core) (a ipa level : Nat) (old new : Word) : Prop where
  before : c.forest.entry a level (ipa / 4096 / 512 ^ (3 - level)) = some old
  leaf : S2tte.isTable old level = false
  after : c'.forest.entry a level (ipa / 4096 / 512 ^ (3 - level)) = some new
  kept : LeavesKept c c' a ipa (ipa + 2 ^ (39 - 9 * level))
  realms : ∀ b, c'.realm? b = c.realm? b

theorem LeafAt.replaced {c c' : Core} {ipa l b i : Nat} {v : Word}
    (here : LeafAt c a l (ipa / 4096 / 512 ^ (3 - l) / 512) b i) (inv : c.Inv) (written : Written c c' b i v)
    (realms : ∀ x, c'.realm? x = c.realm? x) (index : i = ipa / 4096 / 512 ^ (3 - l) % 512)
    (aligned : ipa % 2 ^ (39 - 9 * l) = 0) : Replaced c c' a ipa l (c.forest.read b i) v := by
  obtain ⟨_, _, _, high⟩ := inv.realms.realm_of_node here.place
  have number : ipa / 4096 / 512 ^ (3 - l) / 512 * 512 + i = ipa / 4096 / 512 ^ (3 - l) := by omega
  refine ⟨?_, here.leaf, ?_, ?_, realms⟩
  · have stored := Forest.entry_of_node here.place here.index
    rwa [number] at stored
  · have stored := Forest.entry_write_same (e := v) inv.tables.exclusive here.place here.index
    rwa [number, ← written.entry_eq] at stored
  · exact written.leavesKept inv here.place fun below => block_bounds high aligned (below.trans number)

theorem Reached.replaced {c : Core} {ipa top level last : Nat} {slot : Slot} {v : Word}
    (reached : Reached c a (ipa / 4096) top level slot last) (inv : c.Inv)
    (leaf : S2tte.isTable (pte c slot) last = false) (aligned : ipa % 2 ^ (39 - 9 * last) = 0) :
    Replaced c (storePte slot v c) a ipa last (pte c slot) v := by
  have here := reached.leafAt leaf
  have table : c.stateOf slot.table ≠ .rd := by
    rw [(inv.tables.tables here.place).2]
    exact nofun
  exact here.replaced inv (written_storePte table) (realm?_setContent table) reached.index aligned

/-- What is found for the pages below an entry that was replaced. -/
theorem Replaced.leaf_after {c c' : Core} {ipa level g : Nat} {old new : Word} (replaced : Replaced c c' a ipa level old new)
    (high : level ≤ 3) (aligned : ipa % 2 ^ (39 - 9 * level) = 0) (leaf : S2tte.isTable new level = false)
    (lower : ipa ≤ g * 4096) (upper : g * 4096 < ipa + 2 ^ (39 - 9 * level)) :
    c'.forest.Leaf 3 a g level new := by
  refine ⟨high, ?_, forest_next_none leaf⟩
  rw [block_of_bounds high aligned lower upper]
  exact replaced.after

end Leaves

omit [Platform] in
theorem setStateCore_setContent {c : Core} {i b : Nat} {state : GranuleState} {content : Content}
    (kept : wipes (c.granules i).state state = false) :
    setStateCore i state (c.setContent b content) = (setStateCore i state c).setContent b content := by
  unfold setStateCore
  simp only [Core.granules_setContent, kept]
  rfl

/-! ### DATA_CREATE -/

section DataCreate

variable {ipa target : Nat} {isUnknown : Bool}

theorem wp_dataCreate {ok : Unit → Machine → Prop} (realm : s.core.realm? a = some rd) (inv : s.core.Inv)
    (inside : ipa < rd.ipaSize)
    (bad : ∀ e, ¬FindsPlace s.core a ipa → err' (.error e) s)
    (good : ∀ (b : Nat) (set : PteSet), LeafAt s.core a 3 (ipa / 4096 / 512) b (ipa / 4096 % 512) →
      S2tte.isUnassigned (s.core.forest.read b (ipa / 4096 % 512)) = true → set.Sound →
      ok () { s with
        core := storePte ⟨b, ipa / 4096 % 512⟩ (Rtt.dataDesc target isUnknown
          (S2tte.getRipas (s.core.forest.read b (ipa / 4096 % 512)))) s.core
        stores := set :: s.stores }) :
    wp (Rtt.dataCreate rd ipa target isUnknown) ok err' s := by
  have top := (inv.realms.shape realm).level_le
  unfold Rtt.dataCreate
  simp only
  rw [wp_bind]
  refine wp_getS2tte realm inv (Nat.le_refl 3) inside fun slot last found reached => ?_
  have leaf := reached.leaf rfl (by omega)
  rw [wp_bind]
  refine wp_errIf (fun above => bad _ ?_) fun here => ?_
  · rintro ⟨e, entry, _⟩
    obtain ⟨b, place, _⟩ := Forest.node_of_entry entry
    have := reached.not_above (show s.core.forest.node a 3 _ = some b by simpa using place) (Nat.le_refl 3) leaf
    have := reached.high
    exact above (show 3 = last by omega)
  · obtain rfl : last = 3 := (Classical.not_not.mp here).symm
    have entry := reached.entry
    have table := reached.slot_eq
    have leafAt := reached.leafAt leaf
    simp only [Nat.sub_self, Nat.pow_zero, Nat.div_one] at entry table leafAt
    rw [wp_bind]
    refine wp_errIf (fun other => bad _ ?_) fun unassigned => ?_
    · rintro ⟨e, entry', holds⟩
      rw [entry] at entry'
      cases entry'
      simp [holds] at other
    · simp only [Bool.not_eq_true', Bool.not_eq_false] at unassigned
      have noDesc : S2tte.isInvalidRipas (pte s.core slot) = false := by
        rw [← Bool.not_eq_true, S2tte.isInvalidRipas_iff]
        exact fun both => both.1 ((S2tte.isUnassigned_iff _).mp unassigned).1
      rw [if_neg (by simp [noDesc])]
      refine wp_ipaToPteSet realm inv found ?_
      have sound : PteSet.Sound ⟨rd.id, 3, pte s.core slot, Rtt.dataDesc target isUnknown
          (S2tte.getRipas (pte s.core slot)), .none⟩ := .of_invalid ((S2tte.isUnassigned_iff _).mp unassigned).1
      rw [table] at leafAt unassigned sound ⊢
      exact good slot.table _ leafAt unassigned sound

/-- A leaf is one also before a delegated granule was written. -/
theorem LeafAt.of_setContent {c : Core} {l p b i x : Nat} {content : Content}
    (here : LeafAt (c.setContent x content) a l p b i) (inv : c.Inv) (state : c.stateOf x = .delegated) :
    LeafAt c a l p b i ∧ (c.setContent x content).forest.read b i = c.forest.read b i := by
  have forest : SameForest c (c.setContent x content) :=
    (sameOwners_setContent (by rw [state]; exact nofun) (by rw [state]; exact nofun)).sameForest inv.tables
  have place := here.place
  rw [forest.node_eq] at place
  have other : b ≠ x := by
    rintro rfl
    have table := (inv.tables.tables place).2
    rw [state] at table
    exact nomatch table
  have read := @read_setContent_of_ne _ c _ _ content other i
  exact ⟨⟨place, here.index, by rw [← read]; exact here.leaf⟩, read⟩

/-- What an unassigned entry of the protected half says. -/
theorem unassigned_entry {c : Core} {g b : Nat} (inv : c.Inv) (realm : c.realm? a = some rd)
    (inPar : rd.inPar g) (here : LeafAt c a 3 (g / 512) b (g % 512))
    (unassigned : S2tte.isUnassigned (c.forest.read b (g % 512)) = true) :
    S2tte.view 3 (c.forest.read b (g % 512)) =
        .unassigned (S2tte.getRipas (c.forest.read b (g % 512))).toNat ∧
      (S2tte.getRipas (c.forest.read b (g % 512))).toNat ≤ 2 := by
  have view := @S2tte.view_of_isUnassigned _ 3 unassigned
  have ripas : (S2tte.getRipas (c.forest.read b (g % 512))).toNat =
      S2tte.ripasNum (c.forest.read b (g % 512)) := (S2tte.ripas_eq.mp rfl).symm
  rw [ripas]
  refine ⟨view, ?_⟩
  have fits := inv.tables.pages realm (here.page_bottom inv.realms)
  rw [view] at fits
  unfold Rd.Fits at fits
  rw [if_pos inPar] at fits
  exact fits

/-- A delegated granule becomes the memory behind an unassigned page. With unknown contents the page
keeps its RIPAS; otherwise the realm is new. -/
theorem Move.data {c : Core} {g b : Nat} (isUnknown : Bool) (content : Content) (inv : c.Inv)
    (realm : c.realm? a = some rd) (inPar : rd.inPar g) (here : LeafAt c a 3 (g / 512) b (g % 512))
    (unassigned : S2tte.isUnassigned (c.forest.read b (g % 512)) = true)
    (valid : validateAddr target = true) (state : c.stateOf target = .delegated)
    (new : isUnknown = true ∨ ∃ rd, c.realm? a = some rd ∧ rd.state = .new) :
    Move c cmd c (setStateCore (granuleAddrToIndex target) .data
      (storePte ⟨b, g % 512⟩ (Rtt.dataDesc target isUnknown
        (S2tte.getRipas (c.forest.read b (g % 512)))) (c.setContent target content))) := by
  obtain ⟨old, known⟩ := unassigned_entry inv realm inPar here unassigned
  have address := validateAddr_iff.mp valid
  have view := Rtt.view_dataDesc isUnknown (show target % 4096 = 0 by omega) (by omega) known
  refine .addData here valid state (isTable_bottom _) ?_ ?_ (by rw [old]; rfl) ?_
  · intro rd' g' realm' below
    rw [below_bottom below]
    cases realm.symm.trans realm'
    unfold Rd.Fits
    rw [if_pos inPar, view]
    split
    · rename_i other
      have apart : (S2tte.getRipas (c.forest.read b (g % 512))).toNat ≠ 1 := by
        intro same
        exact other.2 (BitVec.eq_of_toNat_eq same)
      exact show _ = 0 ∨ _ = 2 by omega
    · trivial
  · rw [view]
    split
    · rfl
    · rfl
  · intro rd' g' _ below _
    rw [below_bottom below]
    rcases new with rfl | new
    · refine .inl ?_
      rw [view, old]
      split
      · rfl
      · rename_i ram
        simp only [true_and, ne_eq, Classical.not_not] at ram
        rw [ram]
        rfl
    · exact .inr (.inl new)

omit [Platform] in
/-- No lock is held at the start of a command. -/
theorem not_stuck {index : Nat} {p : Prop} (idle : s.held = []) (held : index ∈ s.held) : p := by
  rw [idle] at held
  exact nomatch held

/-- What DATA_CREATE_UNKNOWN asks for. -/
def ReadyForUnknown (c : Core) (a target ipa : Nat) : Prop :=
  target ≠ a ∧ (∃ rd, c.realm? a = some rd ∧ validateIpa rd ipa = true) ∧
    (validateAddr target = true ∧ c.stateOf target = .delegated) ∧ FindsPlace c a ipa

/-- DATA_CREATE_UNKNOWN has put a granule behind the page of `ipa`, which keeps its RIPAS. -/
structure HasUnknown (c c' : Core) (a target ipa : Nat) : Prop where
  aligned : ipa % 4096 = 0
  free : validateAddr target = true ∧ c.stateOf target = .delegated
  replaced : ∃ old, S2tte.isUnassigned old = true ∧
    Replaced c c' a ipa 3 old (Rtt.dataDesc target true (S2tte.getRipas old))
  states : ∀ b, validateAddr b = true → c'.stateOf b = if b = target then .data else c.stateOf b
  mem : ∀ b, c.stateOf b ≠ .rtt → c'.mem b = c.mem b

theorem HasUnknown.of_writes {c : Core} {b : Nat} (inv : c.Inv) (valid : validateAddr target = true)
    (state : c.stateOf target = .delegated) (aligned : ipa % 4096 = 0)
    (here : LeafAt c a 3 (ipa / 4096 / 512) b (ipa / 4096 % 512))
    (unassigned : S2tte.isUnassigned (c.forest.read b (ipa / 4096 % 512)) = true) :
    HasUnknown c (setStateCore (granuleAddrToIndex target) .data (storePte ⟨b, ipa / 4096 % 512⟩
      (Rtt.dataDesc target true (S2tte.getRipas (c.forest.read b (ipa / 4096 % 512)))) c)) a target ipa := by
  have notRd : c.stateOf target ≠ .rd := by rw [state]; exact nofun
  have notRtt : c.stateOf target ≠ .rtt := by rw [state]; exact nofun
  have table := (inv.tables.tables here.place).2
  generalize vEq : Rtt.dataDesc target true (S2tte.getRipas (c.forest.read b (ipa / 4096 % 512))) = v
  have written := inv.written_leaf (v := v) here.place here.index (isTable_bottom _) valid notRd notRtt
    (show GranuleState.data ≠ .rd from nofun)
  have bottom : LeafAt c a 3 (ipa / 4096 / 512 ^ (3 - 3) / 512) b (ipa / 4096 % 512) := by simpa using here
  refine ⟨aligned, ⟨valid, state⟩, ⟨_, unassigned, ?_⟩, fun d validD => stateOf_storeState valid validD, fun d other => ?_⟩
  · rw [vEq]
    refine bottom.replaced inv written (fun x => ?_) (by simp) aligned
    rw [realm?_setState valid (show (storePte _ _ c).stateOf target ≠ .rd from notRd)
      (show GranuleState.data ≠ .rd from nofun)]
    exact realm?_setContent (by rw [table]; exact nofun) x
  · have kept : wipes (c.stateOf target) .data = false := by
      rw [state]
      rfl
    rw [Core.mem_setStateCore_of_not_wipes (c := storePte _ v c) .data kept]
    refine Core.mem_setContent_of_ne _ ?_
    rintro rfl
    exact other table

theorem dataCreateUnknown_spec (cmd : Command) (inv : s.core.Inv) (idle : s.held = []) :
    wp (Rmi.dataCreateUnknown a target ipa)
      (fun _ t => Kept s.core cmd s t ∧ HasUnknown s.core t.core a target ipa)
      (Stops s.core cmd s (ReadyForUnknown s.core a target ipa)) s := by
  unfold Rmi.dataCreateUnknown
  refine wp_lockRd (fun missing _ => Kept.error (.of_eq rfl rfl rfl) ?_) (fun _ held => not_stuck idle held)
    fun rd realm _ => ?_
  · rintro ⟨_, ⟨rd, realm, _⟩, _⟩
    exact nomatch missing.symm.trans realm
  obtain ⟨validA, stateA, _⟩ := Core.realm?_eq_some.mp realm
  rw [wp_bind]
  refine wp_errIf (fun same => Kept.error (.of_eq rfl rfl rfl) fun ready => ready.1 same) fun other => ?_
  rw [wp_bind]
  refine wp_errIf (fun refused => Kept.error (.of_eq rfl rfl rfl) ?_) fun accepted => ?_
  · rintro ⟨_, ⟨rd', realm', valid⟩, _⟩
    cases realm.symm.trans realm'
    rw [valid] at refused
    exact nomatch refused
  obtain ⟨inside, aligned, inPar⟩ := validateIpa_spec (inv.realms.shape realm) (by simpa using accepted)
  rw [wp_bind]
  refine wp_getGranuleIf (fun missing _ => Kept.error (.of_eq rfl rfl rfl) fun ready => missing ready.2.2.1)
    (fun valid held => absurd held ?_) fun valid state _ => ?_
  · simp only [idle]
    exact free_of_ne validA valid other
  rw [wp_bind]
  refine wp_mapSecure valid fun pt safe => ?_
  rw [wp_bind]
  refine wp_dataCreate realm inv inside (fun e missing => ?_) fun b set here unassigned sound => ?_
  · exact Kept.error ⟨.refl, .of_eq rfl, safe⟩ fun ready => missing ready.2.2.2
  · refine ⟨⟨.single ?_, legal_storeState rfl sound (.inl ⟨state, nofun⟩), safe⟩,
      HasUnknown.of_writes inv valid state aligned here unassigned⟩
    have move : Move s.core cmd s.core _ := Move.data true (s.core.mem target) inv realm inPar here unassigned
      valid state (.inl rfl)
    rwa [show s.core.setContent target (s.core.mem target) = s.core by
      simp [Core.setContent]] at move

theorem FindsPlace.of_setContent {c : Core} {x : Nat} {content : Content} (inv : c.Inv)
    (state : c.stateOf x = .delegated) : FindsPlace (c.setContent x content) a ipa ↔ FindsPlace c a ipa := by
  have forest : SameForest c (c.setContent x content) :=
    (sameOwners_setContent (by rw [state]; exact nofun) (by rw [state]; exact nofun)).sameForest inv.tables
  unfold FindsPlace
  rw [forest.entry_eq]

theorem wp_copyToObj {src dst : Nat} {ok : Option Unit → Machine → Prop} (valid : validateAddr src = true)
    (state : s.core.stateOf src = .undelegated) (free : granuleAddrToIndex src ∉ s.held)
    (next : ok (some ()) { s with core := s.core.setContent dst (.raw (s.core.mem src).words) }) :
    wp (copyToObj src dst) ok err' s := by
  unfold copyToObj
  rw [wp_bind]
  refine wp_isNotInRealm (fun _ held => absurd held free) (fun _ _ => ?_) fun no _ => absurd ⟨valid, state⟩ no
  rw [if_pos rfl]
  exact next

/-- DATA_CREATE has put a granule behind the page of `ipa`. -/
structure HasData (c c' : Core) (a target ipa : Nat) : Prop where
  page : c'.Page a (ipa / 4096) (.ram target)
  entry : c'.forest.entry a 3 (ipa / 4096) = some (Rtt.dataDesc target false 0)
  above : ∀ a' l q, l < 3 → c'.forest.entry a' l q = c.forest.entry a' l q
  leaves : LeavesKept c c' a (ipa / 4096 * 4096) (ipa / 4096 * 4096 + 4096)
  realm : ∃ rd op, c.realm? a = some rd ∧ c'.realm? a = some (rd.measured op)
  states : ∀ b, validateAddr b = true → c'.stateOf b = if b = target then .data else c.stateOf b

theorem HasData.of_writes {c : Core} {b : Nat} {ripas : Word} {op : MeasuredOp} {content : Content}
    (inv : c.Inv) (realm : c.realm? a = some rd) (valid : validateAddr target = true)
    (state : c.stateOf target = .delegated) (here : LeafAt c a 3 (ipa / 4096 / 512) b (ipa / 4096 % 512))
    (known : ripas.toNat ≤ 2) :
    HasData c (((setStateCore (granuleAddrToIndex target) .data (storePte ⟨b, ipa / 4096 % 512⟩
      (Rtt.dataDesc target false ripas) (c.setContent target content))).setContent a
        (.rd (rd.measured op))).emit (.measured a op)) a target ipa := by
  have notRd : c.stateOf target ≠ .rd := by rw [state]; exact nofun
  have notRtt : c.stateOf target ≠ .rtt := by rw [state]; exact nofun
  have inv' : (c.setContent target content).Inv := inv.setContent notRd notRtt (by rw [state]; exact nofun)
  obtain ⟨leaf, _⟩ := here.setContent content inv state
  have forest : SameForest c (c.setContent target content) :=
    (sameOwners_setContent notRd notRtt).sameForest inv.tables
  have written := inv'.written_leaf (v := Rtt.dataDesc target false ripas) leaf.place leaf.index
    (isTable_bottom _) valid notRd notRtt (show GranuleState.data ≠ .rd from nofun)
  have table : (c.setContent target content).stateOf b ≠ .rd := by
    rw [(inv'.tables.tables leaf.place).2]
    exact nofun
  generalize midEq : setStateCore (granuleAddrToIndex target) .data (storePte ⟨b, ipa / 4096 % 512⟩
    (Rtt.dataDesc target false ripas) (c.setContent target content)) = mid at written ⊢
  have realm' : mid.realm? a = some rd := by
    rw [← midEq, realm?_setState valid (show (storePte _ _ (c.setContent target content)).stateOf target ≠ .rd from notRd)
      (show GranuleState.data ≠ .rd from nofun)]
    exact (realm?_setContent table a).trans ((realm?_setContent notRd a).trans realm)
  have exclusive := written.exclusive_plain inv'.tables.exclusive leaf.place leaf.index (isTable_bottom _)
  have calm : SameForest mid ((mid.setContent a (.rd (rd.measured op))).emit (.measured a op)) := by
    refine ⟨sameRealms_setRd realm' rfl, fun a' l p d found => ?_⟩
    have place := written.node_of_plain inv'.tables.exclusive leaf.place leaf.index (isTable_bottom _) found
    have other : d ≠ a := by
      rintro rfl
      have tables := (inv'.tables.tables place).2
      rw [Core.stateOf_setContent, (Core.realm?_eq_some.mp realm).2.1] at tables
      exact nomatch tables
    exact congrArg Content.words (Core.mem_setContent_of_ne _ other)
  have address := validateAddr_iff.mp valid
  refine ⟨?_, ?_, fun a' l q above => ?_, ?_, ⟨rd, op, realm, ?_⟩, fun d validD => ?_⟩
  · rw [calm.page_iff]
    have page := written.page_same inv'.tables.exclusive leaf.place leaf.index (isTable_bottom _) (Nat.le_refl 3)
      (show ipa / 4096 / 512 ^ (3 - 3) = _ by simp; omega)
    rwa [Rtt.view_dataDesc _ (show target % 4096 = 0 by omega) (by omega) known, if_neg (by simp), Nat.sub_self,
      Nat.pow_zero, Nat.mod_one, View.at_zero] at page
  · have stored := Forest.entry_write_same (e := Rtt.dataDesc target false ripas) inv'.tables.exclusive leaf.place leaf.index
    rwa [show ipa / 4096 / 512 * 512 + ipa / 4096 % 512 = ipa / 4096 by omega, ← written.entry_eq, ← calm.entry_eq] at stored
  · rw [calm.entry_eq, written.entry_eq, ← forest.entry_eq]
    refine Forest.entry_write_of_ne inv'.tables.exclusive leaf.place ?_ fun same => by omega
    rintro ⟨_, below⟩
    have := below.1
    omega
  · have kept : LeavesKept (c.setContent target content) mid a (ipa / 4096 * 4096) (ipa / 4096 * 4096 + 4096) :=
      written.leavesKept inv' leaf.place fun below => by
        rw [below_bottom below]
        omega
    exact (kept.of_sameForest calm).after_sameForest forest
  · exact (realm?_setRd realm' _ a).trans (if_pos rfl)
  · rw [← midEq]
    exact stateOf_storeState valid validD

theorem dataCreate_spec (rdW targetW ipaW srcW flags : Word) (inv : s.core.Inv) (idle : s.held = [])
    (rdEq : rdW.toNat = a) (targetEq : targetW.toNat = target) (ipaEq : ipaW.toNat = ipa) {src : Nat}
    (srcEq : srcW.toNat = src) (command : cmd = .dataCreate rdW targetW ipaW srcW flags) :
    wp (Rmi.dataCreate a target ipa src flags.toNat)
      (fun _ t => Kept s.core cmd s t ∧ (∃ desc, CopiesData s.core a target ipa src desc) ∧
        FindsPlace s.core a ipa ∧ HasData s.core t.core a target ipa)
      (fun halt t => Stops s.core cmd s
          ((∃ desc, CopiesData s.core a target ipa src desc) ∧ FindsPlace s.core a ipa) halt t ∧
        t.core.log = s.core.log ∧
        (CopiesInVain s.core a target ipa src →
          ∃ e, halt = .error e ∧ t.core = s.core.setContent target (.raw (s.core.mem src).words))) s := by
  have early : ∀ {t : Machine} {e : Error}, t.core = s.core → t.trace = s.trace →
      t.pageTable = s.pageTable → (∀ desc, ¬CopiesData s.core a target ipa src desc) →
      Stops s.core cmd s ((∃ desc, CopiesData s.core a target ipa src desc) ∧ FindsPlace s.core a ipa) (.error e) t ∧
        t.core.log = s.core.log ∧
        (CopiesInVain s.core a target ipa src →
          ∃ e', Halt.error e = .error e' ∧ t.core = s.core.setContent target (.raw (s.core.mem src).words)) := by
    intro t e core trace pageTable fails
    refine ⟨Kept.error (.of_eq core trace pageTable) ?_, by rw [core], ?_⟩
    · rintro ⟨⟨desc, copies⟩, _⟩
      exact fails desc copies
    · rintro ⟨⟨desc, copies⟩, _⟩
      exact absurd copies (fails desc)
  unfold Rmi.dataCreate
  rw [wp_bind]
  refine wp_errIf (fun equal => early rfl rfl rfl fun desc copies => ?_) fun apart => ?_
  · -- granules in three different states are three granules
    have realm := (Core.realm?_eq_some.mp copies.realm).2.1
    have source := copies.source.2
    have fresh := copies.target.2
    rcases equal with rfl | rfl | rfl
    · rw [realm] at fresh
      cases fresh
    · rw [source] at fresh
      cases fresh
    · rw [realm] at source
      cases source
  refine wp_lockRd (fun none _ => early rfl rfl rfl fun desc copies => ?_) (fun _ held => not_stuck idle held)
    fun rd realm _ => ?_
  · have found := copies.realm
    rw [none] at found
    cases found
  obtain ⟨validA, stateA, _⟩ := Core.realm?_eq_some.mp realm
  simp only [not_or] at apart
  rw [wp_bind]
  refine wp_errIf (fun old => early rfl rfl rfl fun desc copies => ?_) fun fresh => ?_
  · cases realm.symm.trans copies.realm
    simp [Rd.atState, copies.new] at old
  have new : rd.state = .new := by simpa [Rd.atState] using fresh
  rw [wp_bind]
  refine wp_errIf (fun bad => early rfl rfl rfl fun desc copies => ?_) fun accepted => ?_
  · cases realm.symm.trans copies.realm
    simp [copies.ipa] at bad
  have accepted : validateIpa rd ipa = true := by simpa using accepted
  obtain ⟨inside, _, inPar⟩ := validateIpa_spec (inv.realms.shape realm) accepted
  rw [wp_bind]
  refine wp_isNotInRealm (fun validS held => absurd held ?_) (fun source _ => ?_) fun no _ => ?_
  · simp only [idle]
    exact free_of_ne validA validS (Ne.symm apart.2.2)
  rotate_left
  · rw [wp_bind]
    refine wp_errIf (fun _ => early rfl rfl rfl fun desc copies => no copies.source) fun good => ?_
    exact absurd rfl good
  rw [wp_bind]
  refine wp_errIf (fun bad => absurd bad (by decide)) fun _ => ?_
  rw [wp_bind]
  refine wp_getGranuleIf (fun bad _ => early rfl rfl rfl fun desc copies => bad copies.target)
    (fun valid held => absurd held ?_) fun valid state _ => ?_
  · simp only [idle]
    exact free_of_ne validA valid apart.1
  have copies : CopiesData s.core a target ipa src rd := ⟨realm, new, accepted, source, valid, state⟩
  obtain ⟨validS, stateS⟩ := source
  rw [wp_bind]
  refine wp_mapSecure valid fun pt safe => ?_
  rw [wp_bind]
  obtain ⟨pt₁, run, safe₁⟩ := @Mm.PageTable.Safe.map_unmap pt src validS false
  refine wp_mapGranule validS fun pt₂ run₂ => ?_
  cases run.symm.trans run₂
  rw [wp_bind]
  refine wp_copyToObj validS stateS ?_ ?_
  · simp only [idle, List.mem_cons, List.not_mem_nil, or_false, granuleAddrToIndex_inj validS valid,
      granuleAddrToIndex_inj validS validA, not_or]
    exact ⟨Ne.symm apart.2.1, Ne.symm apart.2.2⟩
  simp only [wp_bind, orInput, wp_pure, wp_pageTableUnmap]
  have notRd : s.core.stateOf target ≠ .rd := by simp [state]
  have inv' : (s.core.setContent target (.raw (s.core.mem src).words)).Inv :=
    inv.setContent notRd (by simp [state]) (by simp [state])
  have realm' := realm
  rw [← realm?_setContent notRd] at realm'
  refine wp_dataCreate realm' inv' inside (fun e none => ?_) fun b set here unassigned sound => ?_
  · rw [FindsPlace.of_setContent inv state] at none
    refine ⟨Kept.error ⟨.single (.leaveData valid state ?_), .of_eq rfl, safe.trans safe₁⟩ fun ready => none ready.2,
      rfl, fun _ => ⟨e, rfl, rfl⟩⟩
    subst command rdEq targetEq ipaEq srcEq
    exact ⟨rfl, rfl, ⟨rd, copies⟩, none⟩
  · obtain ⟨leaf, read⟩ := here.of_setContent inv state
    rw [read] at unassigned ⊢
    have found : FindsPlace s.core a ipa := by
      refine ⟨_, ?_, unassigned⟩
      have entry := Forest.entry_of_node leaf.place leaf.index
      rwa [show ipa / 4096 / 512 * 512 + ipa / 4096 % 512 = ipa / 4096 by omega] at entry
    have move : Move s.core cmd s.core _ := Move.data false (.raw (s.core.mem src).words) inv realm inPar leaf
      unassigned valid state (.inr ⟨rd, realm, new⟩)
    rw [wp_bind, wp_contentPage, wp_bind,
      HashContext.measureDataGranule_ok (inv.realms.hash realm)]
    refine wp_ofExcept (by simp) fun measured run => ?_
    cases run
    have unwiped : wipes (s.core.stateOf target) .data = false := by
      rw [state]
      rfl
    simp only [wp_bind, wp_setRd, wp_emit, wp_setGranule, indexToAddr_granuleAddrToIndex validA]
    refine ⟨⟨.tail (.single move) ?_, legal_storeState rfl sound (.inl ⟨state, (by simp)⟩), safe.trans safe₁⟩,
      ⟨rd, copies⟩, found, ?_⟩
    all_goals rw [Core.setStateCore_emit, setStateCore_setContent]
    · refine .setRd ?_ (.measure (.data ipa flags.toNat _) ⟨by rw [← ipaEq]; exact ipaW.isLt, flags.isLt⟩
        (by rw [command]; trivial) new)
      refine (realm?_setState valid ?_ (by decide) a).trans ((realm?_setContent ?_ a).trans realm')
      · exact notRd
      · rw [Core.stateOf_setContent, (inv.tables.tables leaf.place).2]
        simp
    · exact unwiped
    · exact HasData.of_writes inv realm valid state leaf (unassigned_entry inv realm inPar leaf unassigned).2
    · exact unwiped

end DataCreate

/-! ### DATA_DESTROY -/

section DataDestroy

variable {ipa : Nat}

omit [Platform] in
/-- The entries that DATA_DESTROY takes are those of pages with a granule. -/
theorem data_entry {e : Word} (taken : ¬(3 < 3 ∨
      ((!S2tte.isValid e 3 false) = true ∧ (!S2tte.isAssigned e) = true))) :
    (S2tte.view 3 e = .ram (S2tte.outAddr e 3) ∧ S2tte.isAssignedRam e 3 = true) ∨
      S2tte.view 3 e = .assigned (S2tte.outAddr e 3) (S2tte.ripasNum e) ∧ S2tte.isAssignedRam e 3 = false := by
  by_cases ram : S2tte.isAssignedRam e 3 = true
  · exact .inl ⟨S2tte.view_of_isAssignedRam ram, ram⟩
  · have notValid : S2tte.isValid e 3 false = false := by
      rw [← Bool.not_eq_true]
      intro valid
      apply ram
      simp only [S2tte.isValid, S2tte.isAssignedRam, S2tte.isLeafAt] at valid ⊢
      simpa using valid
    have assigned : S2tte.isAssigned e = true := by
      by_contra other
      exact taken (.inr ⟨by rw [notValid]; rfl, by simpa using other⟩)
    exact .inr ⟨S2tte.view_of_isAssigned assigned (by omega) (by omega), (Bool.not_eq_true _).mp ram⟩

omit [Platform] in
/-- All of them are taken. -/
theorem taken_of_backing {e : Word} {pa : Nat} (named : (S2tte.view 3 e).backing? = some pa) :
    ¬((!S2tte.isValid e 3 false) = true ∧ (!S2tte.isAssigned e) = true) := by
  rintro ⟨notValid, notAssigned⟩
  simp only [Bool.not_eq_true'] at notValid notAssigned
  cases view : S2tte.view 3 e with
  | assigned base ripas => cases notAssigned.symm.trans (S2tte.isAssigned_of_view view).1
  | ram base =>
    obtain ⟨ns, _, _, _, desc⟩ := S2tte.mapped_of_view view
    have mapped : S2tte.isAssignedRam e 3 = true := (S2tte.isAssignedRam_iff _ _).mpr ⟨ns, by omega⟩
    have valid : S2tte.isValid e 3 false = true := by
      simp only [S2tte.isValid, S2tte.isAssignedRam, S2tte.isLeafAt] at mapped ⊢
      simpa using mapped
    cases notValid.symm.trans valid
  | table addr => rw [view] at named; cases named
  | unassigned ripas => rw [view] at named; cases named
  | unassignedNs => rw [view] at named; cases named
  | ns base => rw [view] at named; cases named
  | malformed => rw [view] at named; cases named

/-- The page of `ipa` has a granule. -/
def Core.Backed (c : Core) (a ipa pa : Nat) : Prop :=
  ∃ e, c.forest.entry a 3 (ipa / 4096) = some e ∧ (S2tte.view 3 e).backing? = some pa

/-- DATA_DESTROY has taken the granule `pa` from the page of `ipa`. -/
structure HasDestroyed (c c' : Core) (a ipa pa top : Nat) : Prop where
  entry : ∃ old, c.forest.entry a 3 (ipa / 4096) = some old ∧ (S2tte.view 3 old).backing? = some pa ∧
    c'.forest.entry a 3 (ipa / 4096) = some (Rtt.dataGoneDesc old)
  others : ∀ a' l q, ¬(a' = a ∧ l = 3 ∧ q = ipa / 4096) → c'.forest.entry a' l q = c.forest.entry a' l q
  granule : c.Has pa .data
  states : ∀ b, validateAddr b = true → c'.stateOf b = if b = pa then .delegated else c.stateOf b
  wiped : c'.mem pa = .raw .zero
  table : ∃ b, c.forest.node a 3 (ipa / 4096 / 512) = some b ∧
    (∀ i, i ≠ ipa / 4096 % 512 → (c'.mem b).words i = (c.mem b).words i) ∧ ∀ x, x ≠ pa → x ≠ b → c'.mem x = c.mem x
  skips : c'.Skips a 3 ipa top

omit [Platform] in
theorem inPar_of_addrInPar (inside : rd.addrInPar ipa = true) : rd.inPar (ipa / 4096) := by
  simp only [Rd.addrInPar, decide_eq_true_eq] at inside
  unfold Rd.inPar
  omega

/-- The entry of a page whose granule goes. -/
theorem dataGone_fits {c : Core} {g b pa : Nat} (inv : c.Inv) (realm : c.realm? a = some rd)
    (inPar : rd.inPar g) (here : LeafAt c a 3 (g / 512) b (g % 512))
    (named : (S2tte.view 3 (c.forest.read b (g % 512))).backing? = some pa) :
    rd.Fits g (S2tte.view 3 (Rtt.dataGoneDesc (c.forest.read b (g % 512)))) ∧
      ((S2tte.view 3 (Rtt.dataGoneDesc (c.forest.read b (g % 512)))).ripas? =
          (S2tte.view 3 (c.forest.read b (g % 512))).ripas? ∨
        (S2tte.view 3 (Rtt.dataGoneDesc (c.forest.read b (g % 512)))).ripas? = some 2) := by
  have fits := inv.tables.pages realm (here.page_bottom inv.realms)
  unfold Rd.Fits at fits ⊢
  rw [if_pos inPar] at fits ⊢
  rw [Rtt.view_dataGoneDesc]
  split
  · exact ⟨Nat.le_refl 2, .inr rfl⟩
  · rename_i notRam
    cases view : S2tte.view 3 (c.forest.read b (g % 512)) with
    | assigned base ripas =>
      rw [view] at fits
      obtain ⟨_, _, _, _, rfl⟩ := S2tte.isAssigned_of_view view
      exact ⟨show _ ≤ 2 by rcases fits with same | same <;> omega, .inl rfl⟩
    | ram base =>
      obtain ⟨ns, _, _, _, desc⟩ := S2tte.mapped_of_view view
      exact absurd ((S2tte.isAssignedRam_iff _ _).mpr ⟨ns, by omega⟩) notRam
    | table addr => rw [view] at named; exact nomatch named
    | unassigned ripas => rw [view] at named; exact nomatch named
    | unassignedNs => rw [view] at named; exact nomatch named
    | ns base => rw [view] at named; exact nomatch named
    | malformed => rw [view] at named; exact nomatch named

omit [Platform] in
theorem view_dataGone_backing (e : Word) : (S2tte.view 3 (Rtt.dataGoneDesc e)).backing? = none := by
  rw [Rtt.view_dataGoneDesc]
  rfl

omit [Platform] in
/-- A page that is mapped is flushed, and the others no walk has used. -/
theorem dataGone_sound {e : Word} (taken : ¬(3 < 3 ∨
      ((!S2tte.isValid e 3 false) = true ∧ (!S2tte.isAssigned e) = true))) (new : Word) (vmid : Nat) :
    PteSet.Sound ⟨vmid, 3, e, new, if S2tte.isAssignedRam e 3 then .leaf vmid else .none⟩ := by
  rcases data_entry taken with ⟨_, ram⟩ | ⟨view, other⟩
  · rw [if_pos ram]
    refine .of_flushes (.inl rfl) fun forgotten => ?_
    rcases forgotten with ⟨level, _⟩ | ⟨level, _⟩
    · exact nomatch level
    · exact nomatch level
  · rw [if_neg (by rw [other]; exact nofun)]
    exact .of_invalid ((S2tte.isAssigned_iff _).mp (S2tte.isAssigned_of_view view).1).1

theorem wp_dataDestroy {ok : Nat × Nat → Machine → Prop} (realm : s.core.realm? a = some rd)
    (inv : s.core.Inv) (inside : ipa < rd.ipaSize) (aligned : ipa % 4096 = 0) (inPar : rd.inPar (ipa / 4096))
    (bad : ∀ halt t, (∀ pa, ¬s.core.Backed a ipa pa) → halt ≠ .deadlock → t.core = s.core → t.trace = s.trace →
      t.pageTable = s.pageTable → err' halt t)
    (good : ∀ b pa top set, LeafAt s.core a 3 (ipa / 4096 / 512) b (ipa / 4096 % 512) →
      (S2tte.view 3 (s.core.forest.read b (ipa / 4096 % 512))).backing? = some pa →
      Replaced s.core (storePte ⟨b, ipa / 4096 % 512⟩
        (Rtt.dataGoneDesc (s.core.forest.read b (ipa / 4096 % 512))) s.core) a ipa 3
        (s.core.forest.read b (ipa / 4096 % 512)) (Rtt.dataGoneDesc (s.core.forest.read b (ipa / 4096 % 512))) →
      (storePte ⟨b, ipa / 4096 % 512⟩
        (Rtt.dataGoneDesc (s.core.forest.read b (ipa / 4096 % 512))) s.core).Skips a 3 ipa top → PteSet.Sound set →
      ok (pa, top) { s with
        core := storePte ⟨b, ipa / 4096 % 512⟩
          (Rtt.dataGoneDesc (s.core.forest.read b (ipa / 4096 % 512))) s.core
        stores := set :: s.stores }) :
    wp (Rtt.dataDestroy rd ipa) ok err' s := by
  have top := (inv.realms.shape realm).level_le
  unfold Rtt.dataDestroy
  simp only [S2tte.rttPageLevel]
  rw [wp_bind]
  refine wp_getS2tte realm inv (Nat.le_refl 3) inside fun slot last found reached => ?_
  have leaf := reached.leaf rfl (by omega)
  dsimp only
  refine wp_if (fun refused => ?_) fun taken => ?_
  · have missing : ∀ pa, ¬s.core.Backed a ipa pa := by
      rintro pa ⟨e, entry, named⟩
      obtain ⟨rfl, same⟩ := reached.at_entry (by omega) (Nat.le_refl 3) (by simpa using entry)
      rw [same] at refused
      exact taken_of_backing named (refused.resolve_left (Nat.lt_irrefl 3))
    rw [wp_bind]
    exact (Quiet.skipNonLiveEntries rd ipa last).wp (fun _ => bad _ _ missing (by simp) rfl rfl rfl)
      fun halt free => bad halt s missing free rfl rfl rfl
  obtain rfl : last = 3 := by
    have := reached.high
    have low : ¬last < 3 := fun above => taken (.inl above)
    omega
  obtain ⟨b, i⟩ := slot
  obtain rfl : i = ipa / 4096 % 512 := by simpa using reached.index
  have here : LeafAt s.core a 3 (ipa / 4096 / 512) b (ipa / 4096 % 512) := by simpa using reached.leafAt leaf
  have entry := data_entry taken
  have named : (S2tte.view 3 (s.core.forest.read b (ipa / 4096 % 512))).backing? =
      some (S2tte.outAddr (s.core.forest.read b (ipa / 4096 % 512)) 3) := by
    rcases entry with ⟨view, _⟩ | ⟨view, _⟩
    · exact congrArg View.backing? view
    · exact congrArg View.backing? view
  obtain ⟨fits, _⟩ := dataGone_fits inv realm inPar here named
  rw [wp_bind]
  refine wp_orPanic (fun none => by cases none) fun pa block => ?_
  cases block
  rw [wp_bind]
  refine wp_ipaToPteSet realm inv found ?_
  have inv' : (storePte ⟨b, ipa / 4096 % 512⟩ (Rtt.dataGoneDesc (s.core.forest.read b (ipa / 4096 % 512)))
      s.core).Inv := by
    refine inv.setEntry here (isTable_bottom _) ?_ (.inl (view_dataGone_backing _))
    intro rd' g realm' below
    cases realm.symm.trans realm'
    rw [below_bottom below]
    exact fits
  have realm' := (@realm?_setContent _ s.core b (.raw (Function.update (s.core.mem b).words
    (ipa / 4096 % 512) (Rtt.dataGoneDesc (s.core.forest.read b (ipa / 4096 % 512)))))
    (by simp [(inv.tables.tables here.place).2]) a).trans realm
  rw [wp_bind]
  have replaced := reached.replaced (v := Rtt.dataGoneDesc (s.core.forest.read b (ipa / 4096 % 512))) inv leaf aligned
  obtain ⟨_, there, _⟩ := Option.map_eq_some_iff.mp replaced.after
  refine wp_skipNonLiveEntries realm' inv' (Nat.le_refl 3) inside aligned there fun top skips => ?_
  have address := good b _ top _ here named replaced skips (dataGone_sound taken (Rtt.dataGoneDesc (s.core.forest.read b (ipa / 4096 % 512))) rd.id)
  rwa [← S2tte.toNat_blockMask (by omega) (by omega)] at address

theorem Core.Skips.of_entries {c c' : Core} {level base top : Nat} (skips : c.Skips a level base top)
    (same : ∀ q, c'.forest.entry a level q = c.forest.entry a level q) : c'.Skips a level base top := by
  refine ⟨fun x lower upper => ?_, fun e stored => ?_⟩
  · rw [same]
    exact skips.dead x lower upper
  · rw [same] at stored
    exact skips.progress e stored

/-- An entry of the bottom level is written: all other entries stay. -/
theorem Written.entry_other {c c' : Core} {g b : Nat} {v : Word} (written : Written c c' b (g % 512) v) (inv : c.Inv)
    (place : c.forest.node a 3 (g / 512) = some b) {a' l q : Nat} (other : ¬(a' = a ∧ l = 3 ∧ q = g)) :
    c'.forest.entry a' l q = c.forest.entry a' l q := by
  rw [written.entry_eq]
  by_cases deep : a' = a ∧ Forest.Under 512 3 (g / 512 * 512 + g % 512) l (q / 512)
  · -- there is nothing below the bottom level, before and after
    obtain ⟨rfl, under⟩ := deep
    have index : g % 512 < 512 := Nat.mod_lt _ (by omega)
    have none : c.forest.node a' l (q / 512) = none := by
      refine Option.eq_none_iff_forall_ne_some.mpr fun d found => ?_
      obtain ⟨_, _, _, bound⟩ := inv.realms.realm_of_node found
      have := under.1
      omega
    rw [Forest.entry, Forest.entry, none, Forest.node_write_under inv.tables.exclusive place index
      (forest_next_none (isTable_bottom v)) under]
    rfl
  · refine Forest.entry_write_of_ne inv.tables.exclusive place deep fun same => other ⟨same.1, same.2.1, ?_⟩
    omega

theorem HasDestroyed.of_writes {c : Core} {b pa top : Nat} (inv : c.Inv)
    (here : LeafAt c a 3 (ipa / 4096 / 512) b (ipa / 4096 % 512)) (valid : validateAddr pa = true)
    (state : c.stateOf pa = .data)
    (named : (S2tte.view 3 (c.forest.read b (ipa / 4096 % 512))).backing? = some pa)
    (skips : (storePte ⟨b, ipa / 4096 % 512⟩ (Rtt.dataGoneDesc (c.forest.read b (ipa / 4096 % 512))) c).Skips a 3 ipa top) :
    HasDestroyed c (setStateCore (granuleAddrToIndex pa) .delegated (storePte ⟨b, ipa / 4096 % 512⟩
      (Rtt.dataGoneDesc (c.forest.read b (ipa / 4096 % 512))) c)) a ipa pa top := by
  have table := (inv.tables.tables here.place).2
  have apart : b ≠ pa := by
    rintro rfl
    exact nomatch state.symm.trans table
  have whole : ipa / 4096 / 512 * 512 + ipa / 4096 % 512 = ipa / 4096 := by omega
  generalize goneEq : Rtt.dataGoneDesc (c.forest.read b (ipa / 4096 % 512)) = gone at skips ⊢
  have written := inv.written_leaf (v := gone) here.place here.index (isTable_bottom _) valid
    (by rw [state]; exact nofun) (by rw [state]; exact nofun) (show GranuleState.delegated ≠ .rd from nofun)
  have before := Forest.entry_of_node here.place here.index
  have after := Forest.entry_write_same (e := gone) inv.tables.exclusive here.place here.index
  rw [whole] at before after
  refine ⟨⟨_, before, named, ?_⟩, fun a' l q => written.entry_other inv here.place, ⟨valid, state⟩,
    fun x validX => stateOf_storeState valid validX, Core.mem_setStateCore_delegated valid,
    ⟨b, here.place, fun i other => ?_, fun x ne ne' => ?_⟩, skips.of_entries fun q => ?_⟩
  · rw [written.entry_eq, goneEq]
    exact after
  · rw [Core.mem_setStateCore_of_ne _ valid apart]
    exact (read_storePte (c := c) b i).trans (Forest.write_read_other fun same => other same.2)
  · rw [Core.mem_setStateCore_of_ne _ valid ne]
    exact Core.mem_setContent_of_ne _ ne'
  · rw [written.entry_eq, (written_storePte (by rw [table]; exact nofun)).entry_eq]

/-- What DATA_DESTROY asks for. -/
def ReadyForDestroy (c : Core) (a ipa : Nat) : Prop :=
  (∃ rd, c.realm? a = some rd ∧ rd.addrInPar ipa = true ∧ isValidRttCmd rd ipa S2tte.rttPageLevel = true) ∧
    ∃ pa, c.Backed a ipa pa

theorem dataDestroy_spec (rdW ipaW : Word) (inv : s.core.Inv) (idle : s.held = [])
    (command : cmd = .dataDestroy rdW ipaW) :
    wp (Rmi.dataDestroy a ipa)
      (fun _ t => Kept s.core cmd s t ∧ HasDestroyed s.core t.core a ipa (t.ret 1) (t.ret 2))
      (Stops s.core cmd s (ReadyForDestroy s.core a ipa)) s := by
  unfold Rmi.dataDestroy
  refine wp_lockRd (fun missing _ => Kept.error (.of_eq rfl rfl rfl) ?_) (fun _ held => not_stuck idle held)
    fun rd realm _ => ?_
  · rintro ⟨⟨rd, realm, _⟩, _⟩
    cases missing.symm.trans realm
  obtain ⟨validA, stateA, _⟩ := Core.realm?_eq_some.mp realm
  rw [wp_bind]
  refine wp_errIf (fun refused => Kept.error (.of_eq rfl rfl rfl) ?_) fun accepted => ?_
  · rintro ⟨⟨rd', realm', inside, valid⟩, _⟩
    cases realm.symm.trans realm'
    simp [inside, valid] at refused
  simp only [Bool.not_eq_true', not_or, Bool.not_eq_false] at accepted
  obtain ⟨_, inside, aligned⟩ := isValidRttCmd_spec (inv.realms.shape realm) accepted.2
  have inPar := inPar_of_addrInPar accepted.1
  rw [wp_bind]
  refine wp_dataDestroy realm inv inside (by simpa [S2tte.rttPageLevel] using aligned) inPar
    (fun halt t missing free core trace pageTable => Kept.stops (.of_eq core trace pageTable) ?_ free)
    fun b pa top set here named replaced skips sound => ?_
  · rintro ⟨_, pa, backed⟩
    exact missing pa backed
  obtain ⟨valid, state⟩ := inv.tables.backed (here.page_bottom inv.realms) named
  have other : pa ≠ a := by
    rintro rfl
    rw [stateA] at state
    cases state
  dsimp only
  rw [wp_bind]
  refine wp_getGranule (fun invalid => ?_) (fun _ held => absurd held ?_) fun _ _ => ?_
  · rw [valid] at invalid
    cases invalid
  · simp only [idle]
    exact free_of_ne validA valid other
  simp only [wp_bind, wp_setGranule, wp_setRet]
  obtain ⟨fits, retypes⟩ := dataGone_fits inv realm inPar here named
  refine ⟨⟨.single (.dropData here named (isTable_bottom _) ?_ (view_dataGone_backing _) ?_),
    legal_storeState rfl sound (.inr ⟨?_, rfl⟩), .refl _⟩, ?_⟩
  · intro rd' g realm' below
    cases realm.symm.trans realm'
    rw [below_bottom below]
    exact fits
  · intro rd' g _ below _
    rw [below_bottom below]
    subst command
    exact retypes.imp id fun destroyed => .inr (.inl destroyed)
  · change s.core.stateOf pa ≠ _
    rw [state]
    simp
  · exact .of_writes inv here valid state named skips

end DataDestroy

end Islet.Rmm
