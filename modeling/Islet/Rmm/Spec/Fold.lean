import Islet.Rmm.Spec.Rtt
import Mathlib.Combinatorics.Pigeonhole

/-! RTT_FOLD: a homogeneous table is replaced by one entry. Its pages keep their
views, with one exception: a table whose entries are all tables is folded as if its
pages were unassigned and empty. -/

namespace Islet.Rmm

open Lib Prog Bits Rmi Stage2Translation

variable [Platform] {cmd : Command} {s : Machine} {c c₀ : Core} {a : Nat} {rd : Rd}

section Entries

variable {l q : Nat} {e : Word}

/-- The first page below an entry has the view of the entry. -/
theorem first_page (entry : c.forest.entry a l q = some e) (leaf : S2tte.isTable e l = false) (high : l ≤ 3) :
    c.Page a (q * 512 ^ (3 - l)) (S2tte.view l e) := by
  obtain ⟨block, offset⟩ := @page_of_block l q 0 (Nat.pow_pos (by omega))
  rw [Nat.add_zero] at block offset
  have page := Core.Page.of_entry entry leaf high block
  rwa [offset, View.at_zero] at page

theorem protected_entry (inv : c.Inv) (realm : c.realm? a = some rd)
    (entry : c.forest.entry a l q = some e) (high : l ≤ 3) (inPar : rd.inPar (q * 512 ^ (3 - l))) :
    Rtt.ProtectedEntry l e := by
  refine ⟨inv.tables.plain entry, fun leaf => ?_, fun pa named => ?_⟩
  · have fits := inv.tables.pages realm (first_page entry leaf high)
    rwa [Rd.Fits, if_pos inPar] at fits
  · have leaf : S2tte.isTable e l = false := isTable_of_view_ne (by
      generalize S2tte.view l e = v at named
      cases v <;> first | rfl | cases named)
    have valid := validateAddr_iff.mp (inv.tables.backed (first_page entry leaf high) named).1
    omega

theorem unprotected_entry (inv : c.Inv) (realm : c.realm? a = some rd)
    (entry : c.forest.entry a l q = some e) (high : l ≤ 3) (outside : ¬rd.inPar (q * 512 ^ (3 - l))) :
    S2tte.isTable e l = true ∨ (S2tte.view l e).Unprotected := by
  rw [or_iff_not_imp_left, Bool.not_eq_true]
  intro leaf
  have fits := inv.tables.pages realm (first_page entry leaf high)
  rwa [Rd.Fits, if_neg outside] at fits

/-- There is not enough memory to fill a level-1 table with blocks of a gigabyte. -/
theorem not_all_huge {w : Nat → Word} (inv : c.Inv)
    (entries : ∀ i < 512, c.forest.entry a 1 (q * 512 + i) = some (w i)) :
    ∃ i < 512, ∀ pa, S2tte.view 1 (w i) ≠ .ram pa := by
  by_contra all
  simp only [not_exists, not_and, not_forall, ne_eq, Classical.not_not] at all
  have page : ∀ i < 512, c.Page a ((q * 512 + i) * 512 ^ 2) (.ram (S2tte.outAddr (w i) 1)) := by
    intro i index
    obtain ⟨pa, view⟩ := all i index
    obtain ⟨_, rfl, _⟩ := S2tte.mapped_of_view view
    have first := first_page (entries i index) (isTable_of_view_ne (by rw [view]; rfl)) (by omega)
    rwa [view] at first
  have gigabyte : ∀ i ∈ Finset.range 5, S2tte.outAddr (w i) 1 / 2 ^ 30 ∈ ({2, 3, 34, 35} : Finset Nat) := by
    intro i member
    have index := Finset.mem_range.mp member
    have valid := validateAddr_iff.mp (inv.tables.backed (page i (by omega)) rfl).1
    have aligned : S2tte.outAddr (w i) 1 % 2 ^ 30 = 0 := Nat.mul_mod_left _ _
    simp only [Finset.mem_insert, Finset.mem_singleton]
    omega
  obtain ⟨i, first, j, second, other, same⟩ :=
    Finset.exists_ne_map_eq_of_card_lt_of_maps_to (by decide) gigabyte
  have firstIndex := Finset.mem_range.mp first
  have secondIndex := Finset.mem_range.mp second
  have equal : S2tte.outAddr (w i) 1 = S2tte.outAddr (w j) 1 := by
    have left : S2tte.outAddr (w i) 1 % 2 ^ 30 = 0 := Nat.mul_mod_left _ _
    have right : S2tte.outAddr (w j) 1 % 2 ^ 30 = 0 := Nat.mul_mod_left _ _
    omega
  obtain ⟨_, pages⟩ := inv.tables.backed_inj (page i (by omega)) (page j (by omega)) rfl (congrArg some equal.symm)
  omega

end Entries

omit [Platform] in
theorem View.isTable_at (v : View) (k : Nat) : (v.at_ k).isTable = v.isTable := by
  cases v <;> rfl

omit [Platform] in
theorem View.ripas_at (v : View) (k : Nat) : (v.at_ k).ripas? = v.ripas? := by
  cases v <;> rfl

section Table

variable {l q g : Nat} {w : Nat → Word} (inner : l < 3)
  (entries : ∀ j < 512, c.forest.entry a (l + 1) (q * 512 + j) = some (w j)) (below : g / 512 ^ (3 - l) = q)

include inner entries below

/-- The page of a table's entry that is a leaf. -/
theorem page_in_table (leaf : S2tte.isTable (w (g / 512 ^ (3 - (l + 1)) % 512)) (l + 1) = false) :
    c.Page a g ((S2tte.view (l + 1) (w (g / 512 ^ (3 - (l + 1)) % 512))).at_ (g % 512 ^ (3 - (l + 1)))) := by
  have power : 512 ^ (3 - l) = 512 ^ (3 - (l + 1)) * 512 := by
    rw [← Nat.pow_succ]
    congr 1
    omega
  have block : g / 512 ^ (3 - (l + 1)) = q * 512 + g / 512 ^ (3 - (l + 1)) % 512 := by
    rw [← below, power, ← Nat.div_div_eq_div_mul]
    exact (Nat.div_add_mod' _ 512).symm
  exact Core.Page.of_entry (entries _ (Nat.mod_lt _ (by omega))) leaf (by omega) block

/-- The pages below a table whose entries continue the view `v` have that view. -/
theorem page_of_entries {v : View} (plain : v.isTable = false)
    (views : ∀ j < 512, S2tte.view (l + 1) (w j) = v.at_ (j * 512 ^ (3 - (l + 1)))) :
    c.Page a g (v.at_ (g % 512 ^ (3 - l))) := by
  have view := views (g / 512 ^ (3 - (l + 1)) % 512) (Nat.mod_lt _ (by omega))
  have page := page_in_table inner entries below (isTable_of_view_ne (by rw [view, View.isTable_at, plain]))
  rwa [view, View.at_at, offset_split inner] at page

end Table

/-- The table at `r` hangs at entry `i` of the table at `b`. -/
structure ChildAt (c : Core) (a l p b i r : Nat) : Prop where
  place : c.forest.node a l p = some b
  index : i < 512
  inner : l < 3
  child : c.forest.node a (l + 1) (p * 512 + i) = some r

namespace ChildAt

variable {l p b i r : Nat} (here : ChildAt c a l p b i r)
include here

theorem entry {j : Nat} (index : j < 512) :
    c.forest.entry a (l + 1) ((p * 512 + i) * 512 + j) = some (c.forest.read r j) :=
  Forest.entry_of_node here.child index

/-- The pages below a table that was folded into `v` have the view `v` already. -/
theorem page {g : Nat} {v : View} (below : Below l p i g) (plain : v.isTable = false)
    (views : ∀ j < 512, S2tte.view (l + 1) (c.forest.read r j) = v.at_ (j * 512 ^ (3 - (l + 1)))) :
    c.Page a g (v.at_ (g % 512 ^ (3 - l))) :=
  page_of_entries here.inner (fun _ => here.entry) below plain views

theorem first_below {j : Nat} (index : j < 512) :
    Below l p i (((p * 512 + i) * 512 + j) * 512 ^ (3 - (l + 1))) := by
  have inner := here.inner
  have power : 512 ^ (3 - l) = 512 ^ (3 - (l + 1)) * 512 := by
    rw [← Nat.pow_succ]
    congr 1
    omega
  rw [Below, power, ← Nat.div_div_eq_div_mul, Nat.mul_div_cancel _ (Nat.pow_pos (by omega))]
  omega

variable (inv : c.Inv) (realm : c.realm? a = some rd)
include inv realm

theorem known (inPar : ∀ {g}, Below l p i g → rd.inPar g) {j : Nat} (index : j < 512) :
    Rtt.ProtectedEntry (l + 1) (c.forest.read r j) := by
  have inner := here.inner
  exact protected_entry inv realm (here.entry index) (by omega) (inPar (here.first_below index))

/-- Folding a table of the protected half. -/
theorem fold_protected {new : Word} (inPar : ∀ {g}, Below l p i g → rd.inPar g)
    (same : S2tte.isHomogeneous ((List.range 512).map (c.forest.read r)) (l + 1) = true)
    (made : Rtt.foldDesc (c.forest.read r 0) (l + 1) true = some new)
    (tables : (∀ j < 512, S2tte.isTable (c.forest.read r j) (l + 1) = true) →
      ∀ {g}, Below l p i g → FoldsTables c₀ cmd a g)
    (blocks : l ≤ 1 → (S2tte.view l new).Vacant ∨ FoldsBlocks c₀ cmd) :
    Move c₀ cmd c (setStateCore (granuleAddrToIndex r) .delegated (storePte ⟨b, i⟩ new c)) := by
  have inner := here.inner
  have known : ∀ j < 512, Rtt.ProtectedEntry (l + 1) (c.forest.read r j) := fun j index =>
    here.known inv realm inPar index
  have huge : l + 1 = 1 → ∃ j < 512, ∀ pa, S2tte.view 1 (c.forest.read r j) ≠ .ram pa := by
    intro first
    refine @not_all_huge _ c a (p * 512 + i) _ inv fun j index => ?_
    have entry := here.entry index
    rwa [first] at entry
  rcases Rtt.fold_protected known (by omega) (by omega) huge same made with
    ⟨all, view⟩ | ⟨v, view, plain, views⟩
  · rw [Nat.add_sub_cancel] at view
    refine .dropTable here.place here.index here.child (isTable_of_view_ne (by rw [view]; rfl)) ?_ ?_ ?_
      blocks
    · intro rd' g realm' below
      cases realm.symm.trans realm'
      rw [Rd.Fits, if_pos (inPar below), view]
      exact Nat.zero_le 2
    · intro g pa below named
      rw [view] at named
      cases named
    · intro rd' g w realm' below page _
      rw [view]
      exact .inr (.inr (.inr ⟨tables all below, rfl⟩))
  · rw [Nat.add_sub_cancel] at view
    have page : ∀ {g}, Below l p i g → c.Page a g (v.at_ (g % 512 ^ (3 - l))) := fun below =>
      here.page below plain views
    subst view
    refine .dropTable here.place here.index here.child (isTable_of_view_ne plain) ?_ ?_ ?_ blocks
    · intro rd' g realm' below
      exact (Rd.fits_at _).mp (inv.tables.pages realm' (page below))
    · intro g pa below named
      exact ⟨_, page below, named⟩
    · intro rd' g w realm' below found _
      rw [found.unique (page below), View.ripas_at]
      exact .inl rfl

/-- The pages below a folded table of tables are unassigned and empty. -/
theorem page_of_tables {new : Word} (inPar : ∀ {g}, Below l p i g → rd.inPar g)
    (all : ∀ j < 512, S2tte.isTable (c.forest.read r j) (l + 1) = true)
    (made : Rtt.foldDesc (c.forest.read r 0) (l + 1) true = some new) {g : Nat} (below : Below l p i g) :
    (setStateCore (granuleAddrToIndex r) .delegated (storePte ⟨b, i⟩ new c)).Page a g (.unassigned 0) := by
  have inner := here.inner
  have known : ∀ j < 512, Rtt.ProtectedEntry (l + 1) (c.forest.read r j) := fun j index =>
    here.known inv realm inPar index
  obtain ⟨_, view⟩ := Rtt.fold_tables known (Rtt.homogeneous_of_tables all).1 made (all 0 (by omega))
  rw [Nat.add_sub_cancel] at view
  have plain : S2tte.isTable new l = false := isTable_of_view_ne (by rw [view]; rfl)
  have page := (inv.written_table here.place here.index here.child plain).page_same inv.tables.exclusive
    here.place here.index plain (by omega) below
  rwa [view] at page

/-- Folding a table of the unprotected half. -/
theorem fold_unprotected {new : Word} (outside : ∀ {g}, Below l p i g → ¬rd.inPar g)
    (made : Rtt.foldDesc (c.forest.read r 0) (l + 1) false = some new)
    (blocks : l ≤ 1 → (S2tte.view l new).Vacant ∨ FoldsBlocks c₀ cmd) :
    Move c₀ cmd c (setStateCore (granuleAddrToIndex r) .delegated (storePte ⟨b, i⟩ new c)) := by
  have inner := here.inner
  have known := unprotected_entry inv realm (here.entry (show 0 < 512 by omega)) (by omega)
    (outside (here.first_below (by omega)))
  have view := Rtt.fold_unprotected known (by omega) (by omega) made
  rw [Nat.add_sub_cancel] at view
  refine .dropTable here.place here.index here.child (isTable_of_view_ne view.plain.1) ?_ ?_ ?_ blocks
  · intro rd' g realm' below
    cases realm.symm.trans realm'
    rw [Rd.Fits, if_neg (outside below)]
    exact view
  · intro g pa below named
    rw [backing_at, view.plain.2] at named
    cases named
  · intro rd' g w realm' below page inPar
    cases realm.symm.trans realm'
    exact absurd inPar (outside below)

end ChildAt

section Fold

variable {ipa level : Nat}

/-- What is enough for RTT_FOLD to fold tables of tables. -/
def ReadyToFold (c : Core) (a ipa level : Nat) : Prop :=
  ∃ rd, c.realm? a = some rd ∧ isValidTableCmd rd ipa level = true ∧ rd.addrInPar ipa = true ∧
    TableOfTables c a ipa level

/-- The table below the entry for `ipa` has the entries `w`. -/
def TableHolds (c : Core) (a ipa level : Nat) (w : Nat → Word) : Prop :=
  ∀ j < 512, c.forest.entry a level (ipa / 4096 / 512 ^ (3 - (level - 1)) * 512 + j) = some (w j)

/-- That table is one that `fold` takes. -/
def FoldsAt (c : Core) (a ipa level : Nat) (isProtected : Bool) : Prop :=
  ∃ w, TableHolds c a ipa level w ∧ S2tte.isHomogeneous ((List.range 512).map w) level = true ∧
    Rtt.foldDesc (w 0) level isProtected ≠ none

/-- What is enough for RTT_FOLD to succeed. -/
def Foldable (c : Core) (a ipa level : Nat) : Prop :=
  ∃ rd, c.realm? a = some rd ∧ isValidTableCmd rd ipa level = true ∧ FoldsAt c a ipa level (rd.addrInPar ipa)

theorem ReadyToFold.foldable (ready : ReadyToFold c a ipa level) : Foldable c a ipa level := by
  obtain ⟨rd, realm, accepted, _, tables⟩ := ready
  choose! w holds stored using tables
  obtain ⟨same, made⟩ := Rtt.homogeneous_of_tables holds
  exact ⟨rd, realm, accepted, w, stored, same, made _⟩

/-- The table, and the entry it hangs at. -/
theorem TableHolds.child {l : Nat} {w : Nat → Word} (holds : TableHolds c a ipa (l + 1) w) (low : c.forest.top a ≤ l) :
    ∃ e r, c.forest.entry a l (ipa / 4096 / 512 ^ (3 - l)) = some e ∧ S2tte.isTable e l = true ∧
      c.forest.node a (l + 1) (ipa / 4096 / 512 ^ (3 - l)) = some r ∧ ∀ j < 512, c.forest.read r j = w j := by
  unfold TableHolds at holds
  rw [Nat.add_sub_cancel] at holds
  generalize ipa / 4096 / 512 ^ (3 - l) = q at holds ⊢
  obtain ⟨r, place, _⟩ := Forest.node_of_entry (holds 0 (by omega))
  rw [show (q * 512 + 0) / 512 = q by omega] at place
  have parent := place
  rw [Forest.node_succ low, Option.bind_eq_some_iff] at parent
  obtain ⟨e, entry, next⟩ := parent
  rw [Core.forest_next] at next
  refine ⟨e, r, entry, ?_, place, fun j index => ?_⟩
  · by_contra leaf
    rw [if_neg leaf] at next
    exact nomatch next
  · exact Option.some.inj ((Forest.entry_of_node place index).symm.trans (holds j index))

/-- A folded table, in terms of its entries and what `fold` computes from them. -/
structure HasFolded (c c' : Core) (a ipa level : Nat) (rd : Rd) (w : Nat → Word) (new : Word) : Prop where
  realm : c.realm? a = some rd
  accepted : isValidTableCmd rd ipa level = true
  before : TableHolds c a ipa level w
  same : S2tte.isHomogeneous ((List.range 512).map w) level = true
  made : Rtt.foldDesc (w 0) level (rd.addrInPar ipa) = some new
  after : c'.forest.entry a (level - 1) (ipa / 4096 / 512 ^ (3 - (level - 1))) = some new
  kept : LeavesKept c c' a ipa (ipa + 2 ^ (39 - 9 * (level - 1)))
  realms : ∀ b, c'.realm? b = c.realm? b

/-- The table at `r` is replaced by the entry `new`. -/
theorem ChildAt.hasFolded {l b r : Nat} {new : Word} (here : ChildAt c a l (ipa / 4096 / 512 ^ (3 - l) / 512) b
    (ipa / 4096 / 512 ^ (3 - l) % 512) r) (inv : c.Inv) (realm : c.realm? a = some rd)
    (accepted : isValidTableCmd rd ipa (l + 1) = true)
    (same : S2tte.isHomogeneous ((List.range 512).map (c.forest.read r)) (l + 1) = true)
    (made : Rtt.foldDesc (c.forest.read r 0) (l + 1) (rd.addrInPar ipa) = some new) :
    HasFolded c (setStateCore (granuleAddrToIndex r) .delegated
      (storePte ⟨b, ipa / 4096 / 512 ^ (3 - l) % 512⟩ new c)) a ipa (l + 1) rd (c.forest.read r) new := by
  obtain ⟨_, _, _, aligned⟩ := isValidTableCmd_spec (inv.realms.shape realm) accepted
  rw [Nat.add_sub_cancel] at aligned
  have inner := here.inner
  have number : ipa / 4096 / 512 ^ (3 - l) / 512 * 512 + ipa / 4096 / 512 ^ (3 - l) % 512 =
      ipa / 4096 / 512 ^ (3 - l) := Nat.div_add_mod' _ 512
  have plain : S2tte.isTable new l = false := Rtt.isTable_foldDesc (by omega) (by omega) made
  have written := inv.written_table here.place here.index here.child plain
  refine ⟨realm, accepted, fun j index => ?_, same, made, ?_, ?_, fun d => ?_⟩
  · have stored := here.entry index
    rwa [number] at stored
  · have stored := Forest.entry_write_same (e := new) inv.tables.exclusive here.place here.index
    rwa [number, ← written.entry_eq] at stored
  · exact written.leavesKept inv here.place fun below => block_bounds (by omega) aligned (below.trans number)
  · obtain ⟨valid, state⟩ := inv.tables.tables here.child
    have table : c.stateOf b ≠ .rd := by
      rw [(inv.tables.tables here.place).2]
      exact nofun
    rw [realm?_setState valid (show (storePte _ _ c).stateOf r ≠ .rd from by
      rw [show (storePte _ _ c).stateOf r = c.stateOf r from rfl, state]; exact nofun)
      (show GranuleState.delegated ≠ .rd from nofun)]
    exact realm?_setContent table d

omit [Platform] in
/-- An address that starts a block is in the first entry of the table for the block. -/
theorem first_index {l : Nat} (inner : l < 3) (aligned : ipa % 2 ^ (39 - 9 * l) = 0) :
    ipa / 4096 / 512 ^ (3 - (l + 1)) % 512 = 0 ∧
      ipa / 4096 / 512 ^ (3 - (l + 1)) / 512 = ipa / 4096 / 512 ^ (3 - l) := by
  obtain rfl | rfl | rfl : l = 0 ∨ l = 1 ∨ l = 2 := by omega
  all_goals
    norm_num at aligned ⊢
    omega

/-- What `fold` does to the table it finds. -/
theorem wp_fold {l : Nat} {ok : Nat → Machine → Prop} {err' : Halt → Machine → Prop}
    (realm : s.core.realm? a = some rd) (inv : s.core.Inv) (low : rd.s2StartingLevel ≤ l) (inner : l < 3)
    (inside : ipa < rd.ipaSize) (aligned : ipa % 2 ^ (39 - 9 * l) = 0)
    (free : ∀ r, validateAddr r = true → s.core.stateOf r = .rtt → granuleAddrToIndex r ∉ s.held)
    (bad : ∀ halt t, halt ≠ .deadlock → t.core = s.core → t.trace = s.trace →
      t.pageTable = s.pageTable → ¬FoldsAt s.core a ipa (l + 1) (rd.addrInPar ipa) → err' halt t)
    (good : ∀ b r new held set, ChildAt s.core a l (ipa / 4096 / 512 ^ (3 - l) / 512) b
        (ipa / 4096 / 512 ^ (3 - l) % 512) r →
      S2tte.isHomogeneous ((List.range 512).map (s.core.forest.read r)) (l + 1) = true →
      Rtt.foldDesc (s.core.forest.read r 0) (l + 1) (rd.addrInPar ipa) = some new → PteSet.Sound set →
      ok r { s with
        core := setStateCore (granuleAddrToIndex r) .delegated
          (storePte ⟨b, ipa / 4096 / 512 ^ (3 - l) % 512⟩ new s.core)
        held := held
        history := ⟨granuleAddrToIndex r, s.core.stateOf r, .delegated⟩ :: s.history
        stores := set :: s.stores }) :
    wp (Rtt.fold rd ipa (l + 1)) ok err' s := by
  unfold Rtt.fold
  refine wp_inScope ?_
  have top := Core.forest_top realm
  rw [wp_bind]
  refine wp_getS2tte realm inv (by omega) inside fun slot' last' found' reached' => ?_
  dsimp only
  rw [wp_bind, Nat.add_sub_cancel]
  refine wp_getS2tte realm inv (by omega) inside fun slot last found reached => ?_
  dsimp only
  rw [wp_bind]
  refine wp_errIf (fun above => bad _ _ (by simp) rfl rfl rfl fun ⟨_, holds, _⟩ => ?_) fun here => ?_
  · obtain ⟨e, r, entry, table, _⟩ := holds.child (by omega)
    obtain ⟨rfl, same⟩ := reached.at_entry low (by omega) entry
    rw [same, table] at above
    simp at above
  simp only [Bool.not_eq_true', not_or, Bool.not_eq_false, not_lt] at here
  obtain ⟨deep, table⟩ := here
  obtain rfl : last = l := by
    rcases reached.stop with stop | stop <;> omega
  have child := reached.child table
  obtain ⟨valid, state⟩ := inv.tables.tables child
  obtain ⟨b, i⟩ := slot
  obtain rfl : i = ipa / 4096 / 512 ^ (3 - last) % 512 := reached.index
  have there : ChildAt s.core a last (ipa / 4096 / 512 ^ (3 - last) / 512) b
      (ipa / 4096 / 512 ^ (3 - last) % 512) _ :=
    ⟨reached.place, Nat.mod_lt _ (by omega), inner, child⟩
  rw [S2tte.toNat_addrTblOrPage, wp_bind]
  generalize S2tte.outAddr (pte s.core ⟨b, ipa / 4096 / 512 ^ (3 - last) % 512⟩) 3 = r at child valid state there ⊢
  refine wp_getGranuleIf_free valid state (free r valid state) ?_
  obtain ⟨zero, parent⟩ := first_index inner aligned
  have below : s.core.forest.node a (last + 1) (ipa / 4096 / 512 ^ (3 - (last + 1)) / 512) = some r := by
    rw [parent, ← reached.rejoin]
    exact child
  have entry : s.core.forest.entry a (last + 1) (ipa / 4096 / 512 ^ (3 - (last + 1))) =
      some (s.core.forest.read r 0) := by
    rw [← Nat.div_add_mod' (ipa / 4096 / 512 ^ (3 - (last + 1))) 512, zero]
    exact Forest.entry_of_node below (by omega)
  obtain ⟨_, first⟩ := reached'.at_entry (by omega) (by omega) entry
  rw [wp_bind]
  refine wp_entries realm inv (by omega) inside (by omega) below ?_
  dsimp only
  have all : ∀ {w}, TableHolds s.core a ipa (last + 1) w → ∀ j < 512, s.core.forest.read r j = w j := by
    intro w holds
    obtain ⟨_, r', _, _, place, all⟩ := holds.child (by omega)
    rw [← parent, below] at place
    cases place
    exact all
  have homogeneous : FoldsAt s.core a ipa (last + 1) (rd.addrInPar ipa) →
      S2tte.isHomogeneous ((List.range 512).map fun j => s.core.forest.read r j) (last + 1) = true := by
    rintro ⟨w, holds, same, _⟩
    rwa [List.map_congr_left fun j member => all holds j (List.mem_range.mp member)]
  replace good := fun new held set => good b r new held set there
  generalize (List.range 512).map (fun j => s.core.forest.read r j) = es at homogeneous good ⊢
  refine wp_if (fun same => ?_) fun different => ?_
  · rw [wp_bind, first]
    refine wp_orPanic (fun none => bad _ _ (by simp) rfl rfl rfl fun ⟨w, holds, _, made⟩ => ?_) fun new made => ?_
    · rw [all holds 0 (by omega)] at none
      exact made none
    rw [wp_bind]
    refine wp_ipaToPteSet realm inv found ?_
    rw [wp_bind, wp_setGranule, wp_pure]
    exact good new _ _ same made (.of_table table (.inr rfl))
  · rw [wp_err]
    exact bad _ _ (by simp) rfl rfl rfl fun folds => different (homogeneous folds)

theorem foldsTables_iff {rdW ipaW levelW : Word} {l g : Nat} (rdEq : rdW.toNat = a) (ipaEq : ipaW.toNat = ipa)
    (levelEq : levelW.toNat = l + 1) : FoldsTables c (.rttFold rdW ipaW levelW) a g ↔
      g / 512 ^ (3 - l) = ipa / 4096 / 512 ^ (3 - l) ∧ TableOfTables c a ipa (l + 1) := by
  simp only [FoldsTables]
  rw [rdEq, ipaEq, levelEq, Nat.add_sub_cancel]
  exact ⟨And.right, fun both => ⟨rfl, both⟩⟩

/-- The table of tables that RTT_FOLD is about, as it hangs in the tree. -/
theorem ChildAt.tableOfTables_iff {l b r : Nat} (here : ChildAt c a l (ipa / 4096 / 512 ^ (3 - l) / 512) b
    (ipa / 4096 / 512 ^ (3 - l) % 512) r) : TableOfTables c a ipa (l + 1) ↔
      ∀ j < 512, S2tte.isTable (c.forest.read r j) (l + 1) = true := by
  have entry : ∀ j < 512, c.forest.entry a (l + 1) (ipa / 4096 / 512 ^ (3 - l) * 512 + j) =
      some (c.forest.read r j) := by
    intro j index
    have stored := here.entry index
    rwa [Nat.div_add_mod'] at stored
  unfold TableOfTables
  rw [Nat.add_sub_cancel]
  constructor
  · intro tables j index
    obtain ⟨e, table, stored⟩ := tables j index
    rw [entry j index] at stored
    cases stored
    exact table
  · intro all j index
    exact ⟨_, all j index, entry j index⟩

theorem rttFold_spec (rdW ipaW levelW : Word) (inv : s.core.Inv) (idle : s.held = [])
    (rdEq : rdW.toNat = a) (ipaEq : ipaW.toNat = ipa) (levelEq : levelW.toNat = level)
    (command : cmd = .rttFold rdW ipaW levelW) :
    wp (Rmi.rttFold a ipa level)
      (fun _ t => Kept s.core cmd s t ∧ ∃ rd w new, HasFolded s.core t.core a ipa level rd w new ∧
        ∀ {g}, rd.inPar g → FoldsTables s.core cmd a g → t.core.Page a g (.unassigned 0))
      (fun halt t => Stops s.core cmd s (Foldable s.core a ipa level) halt t ∧
        ∀ e, halt = .error e → t.core = s.core) s := by
  have early : ∀ {t : Machine} {halt : Halt}, t.core = s.core → t.trace = s.trace → t.pageTable = s.pageTable →
      halt ≠ .deadlock → ¬Foldable s.core a ipa level →
      Stops s.core cmd s (Foldable s.core a ipa level) halt t ∧ ∀ e, halt = .error e → t.core = s.core :=
    fun core trace pageTable free notReady => ⟨Kept.stops (.of_eq core trace pageTable) notReady free, fun _ _ => core⟩
  unfold Rmi.rttFold
  refine wp_lockRd (fun none _ => early rfl rfl rfl nofun ?_) (fun _ held => not_stuck idle held)
    fun rd realm _ => ?_
  · rintro ⟨rd, realm, _⟩
    rw [none] at realm
    exact nomatch realm
  obtain ⟨validA, stateA, _⟩ := Core.realm?_eq_some.mp realm
  have shape := inv.realms.shape realm
  rw [wp_bind]
  refine wp_errIf (fun bad => early rfl rfl rfl nofun ?_) fun accepted => ?_
  · rintro ⟨rd', realm', accepted, _⟩
    cases realm.symm.trans realm'
    simp [accepted] at bad
  have accepted : isValidTableCmd rd ipa level = true := by simpa using accepted
  obtain ⟨low, high, inside, aligned⟩ := isValidTableCmd_spec shape accepted
  obtain ⟨l, rfl⟩ : ∃ l, level = l + 1 := ⟨level - 1, by omega⟩
  rw [Nat.add_sub_cancel] at aligned
  have half : ∀ {g}, g / 512 ^ (3 - l) = ipa / 4096 / 512 ^ (3 - l) →
      (rd.inPar g ↔ rd.addrInPar ipa = true) :=
    half_of_below shape (by omega) (by omega) (page_aligned (by omega) aligned)
  have rejoin : ipa / 4096 / 512 ^ (3 - l) / 512 * 512 + ipa / 4096 / 512 ^ (3 - l) % 512 =
      ipa / 4096 / 512 ^ (3 - l) := Nat.div_add_mod' _ 512
  rw [wp_bind]
  refine wp_fold realm inv (by omega) (by omega) inside aligned (fun r valid state => ?_)
    (fun halt t free core trace pageTable stuck => early core trace pageTable free
      fun ⟨_, realm', _, folds⟩ => stuck ?_) fun b r new held set there same made sound => ?_
  · simp only [idle]
    refine free_of_ne validA valid ?_
    rintro rfl
    rw [stateA] at state
    exact nomatch state
  · cases realm.symm.trans realm'
    exact folds
  have folded := there.hasFolded inv realm accepted same made
  have legal := Eq.trans_ne (inv.tables.tables there.child).2 (show GranuleState.rtt ≠ .delegated from nofun)
  rw [wp_setRet]
  have blocks : l ≤ 1 → (S2tte.view l new).Vacant ∨ FoldsBlocks s.core cmd := by
    intro low
    refine (Rtt.foldDesc_vacant low same made).imp_right fun ⟨level, first⟩ => ?_
    rw [command, FoldsBlocks, levelEq, rdEq, ipaEq]
    subst level
    refine ⟨rfl, _, ?_, first⟩
    obtain ⟨start, parent⟩ := first_index (show 1 < 3 by omega) aligned
    have entry := there.entry (show 0 < 512 by omega)
    rwa [rejoin, ← parent, Nat.add_zero, Nat.div_mul_cancel (Nat.dvd_of_mod_eq_zero start), Nat.pow_one] at entry
  by_cases protect : rd.addrInPar ipa = true
  · have inPar : ∀ {g}, Below l (ipa / 4096 / 512 ^ (3 - l) / 512) (ipa / 4096 / 512 ^ (3 - l) % 512) g →
        rd.inPar g := fun below => (half (below.trans rejoin)).mpr protect
    rw [protect] at made
    refine ⟨.single (there.fold_protected inv realm inPar same made ?_ blocks) rfl sound (.inr ⟨legal, rfl⟩) rfl,
      rd, _, new, folded, ?_⟩
    · intro all g below
      rw [command, foldsTables_iff rdEq ipaEq levelEq]
      exact ⟨below.trans rejoin, there.tableOfTables_iff.mpr all⟩
    · intro g _ folds
      rw [command, foldsTables_iff rdEq ipaEq levelEq] at folds
      exact there.page_of_tables inv realm inPar (there.tableOfTables_iff.mp folds.2) made
        (folds.1.trans rejoin.symm)
  · have outside : ∀ {g}, Below l (ipa / 4096 / 512 ^ (3 - l) / 512) (ipa / 4096 / 512 ^ (3 - l) % 512) g →
        ¬rd.inPar g := fun below inPar => protect ((half (below.trans rejoin)).mp inPar)
    rw [Bool.not_eq_true] at protect
    rw [protect] at made
    refine ⟨.single (there.fold_unprotected inv realm outside made blocks) rfl sound (.inr ⟨legal, rfl⟩) rfl,
      rd, _, new, folded, ?_⟩
    intro g inPar folds
    rw [command, foldsTables_iff rdEq ipaEq levelEq] at folds
    exact absurd inPar (outside (folds.1.trans rejoin.symm))

end Fold

end Islet.Rmm
