import Islet.Rmm.Authority
import Islet.Rmm.Splitting

/-! RTT_FOLD against the address space: which tables are replaced by an entry that says the same about every page, and
reads back as it should. Tables of leaves of the lowest level are. A table whose entries are tables is replaced by an
unassigned entry whatever is below it, and blocks are folded to a level at which they are not known to be mapped. -/

namespace Islet.Rmm

open Lib Prog Bits Rmi Stage2Translation

variable [Platform] {s t : Machine} {c c' : Core} {rd : Rd} {a g ipa level : Nat} {w : Nat → Word} {new : Word}

/-! ### The state that is reported for an entry -/

section Reported

variable {e : Word}

omit [Platform] in
theorem Rtt.entryView_vacant (vacant : (S2tte.view level e).Vacant) :
    ∃ d r, Rtt.entryView e level = some (Rtt.rmiUnassigned, d, r) := by
  rcases vacant.cases with ⟨ripas, view⟩ | view
  · exact ⟨_, _, Rtt.entryView_of_isUnassigned (S2tte.isUnassigned_of_view view).1⟩
  · exact ⟨_, _, Rtt.entryView_of_isUnassignedNs (S2tte.isUnassignedNs_of_view view)⟩

omit [Platform] in
theorem Rtt.entryView_ram {pa : Nat} (view : S2tte.view 2 e = .ram pa) :
    ∃ d r, Rtt.entryView e 2 = some (Rtt.rmiAssigned, d, r) := by
  obtain ⟨ns, _, _, _, desc⟩ := S2tte.mapped_of_view view
  exact ⟨_, _, Rtt.entryView_of_isAssignedRam ((S2tte.isAssignedRam_iff _ _).mpr ⟨ns, by omega⟩)⟩

omit [Platform] in
theorem Rtt.entryView_ns {pa : Nat} (view : S2tte.view 2 e = .ns pa) :
    ∃ d r, Rtt.entryView e 2 = some (Rtt.rmiAssigned, d, r) := by
  obtain ⟨ns, _, _, _, desc⟩ := S2tte.ns_of_view view
  exact ⟨_, _, Rtt.entryView_of_isAssignedNs ((S2tte.isAssignedNs_iff _ _).mpr ⟨by omega, by omega⟩)⟩

end Reported

namespace View

/-- The view without the security state of an entry that is not mapped. -/
def ignoreNs : View → View
  | .unassignedNs => .unassigned 0
  | v => v

/-- What RTT_READ_ENTRY should report for the pages that have this view. -/
def Reads (v : View) (state : Nat) : Prop :=
  v.Vacant ∧ state = Rtt.rmiUnassigned ∨ ¬v.Vacant ∧ state = Rtt.rmiAssigned

omit [Platform] in
theorem reads_at (v : View) (k state : Nat) : (v.at_ k).Reads state ↔ v.Reads state := by
  simp only [Reads, vacant_at]

omit [Platform] in
/-- A page of the unprotected half that is not mapped. -/
theorem Unprotected.ignoreNs {v : View} (fits : v.Unprotected) (vacant : v.Vacant) : v.ignoreNs = .unassigned 0 := by
  rcases fits.cases with rfl | rfl | ⟨pa, rfl⟩
  · rfl
  · rfl
  · exact vacant.elim

end View

/-- The views `v` and `w` are the same for a page of the realm; without regard to the security state, where the page is
unprotected and not mapped. -/
def Rd.SameEntry (rd : Rd) (g : Nat) (v w : View) : Prop := if rd.inPar g then w = v else w.ignoreNs = v.ignoreNs

omit [Platform] in
theorem View.ignoreNs_vacant (v : View) : v.ignoreNs.Vacant ↔ v.Vacant := by
  cases v <;> rfl

omit [Platform] in
theorem Rd.SameEntry.vacant_iff {v w : View} (same : rd.SameEntry g v w) : w.Vacant ↔ v.Vacant := by
  unfold Rd.SameEntry at same
  split at same
  · rw [same]
  · rw [← View.ignoreNs_vacant, same, View.ignoreNs_vacant]

omit [Platform] in
theorem Rd.SameEntry.refl (v : View) : rd.SameEntry g v v := by
  unfold Rd.SameEntry
  split <;> rfl

/-! ### The table and the entry that replaces it -/

section Folded

variable (folded : HasFolded c c' a ipa level rd w new) (inv : c.Inv)

include folded inv

theorem HasFolded.bounds : rd.s2StartingLevel < level ∧ level ≤ 3 ∧ ipa % 2 ^ (39 - 9 * (level - 1)) = 0 := by
  obtain ⟨low, high, _, aligned⟩ := isValidTableCmd_spec (inv.realms.shape folded.realm) folded.accepted
  exact ⟨low, high, aligned⟩

theorem HasFolded.below (lower : ipa ≤ g * 4096) (upper : g * 4096 < ipa + 2 ^ (39 - 9 * (level - 1))) :
    g / 512 ^ (3 - (level - 1)) = ipa / 4096 / 512 ^ (3 - (level - 1)) := by
  obtain ⟨_, high, aligned⟩ := folded.bounds inv
  exact block_of_bounds (by omega) aligned lower upper

theorem HasFolded.leaf_after (lower : ipa ≤ g * 4096) (upper : g * 4096 < ipa + 2 ^ (39 - 9 * (level - 1))) :
    c'.forest.Leaf 3 a g (level - 1) new := by
  obtain ⟨low, high, _⟩ := folded.bounds inv
  refine ⟨by omega, ?_, forest_next_none (Rtt.isTable_foldDesc (by omega) high folded.made)⟩
  rw [folded.below inv lower upper]
  exact folded.after

theorem HasFolded.page_after (lower : ipa ≤ g * 4096) (upper : g * 4096 < ipa + 2 ^ (39 - 9 * (level - 1))) :
    c'.Page a g ((S2tte.view (level - 1) new).at_ (g % 512 ^ (3 - (level - 1)))) :=
  ⟨_, _, folded.leaf_after inv lower upper, rfl⟩

/-- No table is for pages of both halves. -/
theorem HasFolded.half (below : g / 512 ^ (3 - (level - 1)) = ipa / 4096 / 512 ^ (3 - (level - 1))) :
    rd.inPar g ↔ rd.addrInPar ipa = true := by
  obtain ⟨low, high, aligned⟩ := folded.bounds inv
  exact half_of_below (inv.realms.shape folded.realm) (by omega) (by omega) (page_aligned (by omega) aligned) below

theorem HasFolded.entries : ∀ j < 512,
    c.forest.entry a (level - 1 + 1) (ipa / 4096 / 512 ^ (3 - (level - 1)) * 512 + j) = some (w j) := by
  obtain ⟨low, _, _⟩ := folded.bounds inv
  rw [Nat.sub_add_cancel (by omega)]
  exact folded.before

theorem HasFolded.first : c.forest.entry a level (ipa / 4096 / 512 ^ (3 - level)) = some (w 0) := by
  obtain ⟨low, high, aligned⟩ := folded.bounds inv
  obtain ⟨start, parent⟩ := first_index (l := level - 1) (by omega) aligned
  rw [Nat.sub_add_cancel (by omega)] at start parent
  have stored := folded.before 0 (by omega)
  rwa [← parent, Nat.add_zero, Nat.div_mul_cancel (Nat.dvd_of_mod_eq_zero start)] at stored

/-- The page that the call names, if the first entry is not a table. -/
theorem HasFolded.first_page (leaf : S2tte.isTable (w 0) level = false) :
    c.Page a (ipa / 4096) ((S2tte.view level (w 0)).at_ (ipa / 4096 % 512 ^ (3 - level))) :=
  Core.Page.of_entry (folded.first inv) leaf (folded.bounds inv).2.1 rfl

theorem HasFolded.first_below {j : Nat} (index : j < 512) :
    (ipa / 4096 / 512 ^ (3 - (level - 1)) * 512 + j) * 512 ^ (3 - level) / 512 ^ (3 - (level - 1)) =
      ipa / 4096 / 512 ^ (3 - (level - 1)) := by
  obtain ⟨low, high, _⟩ := folded.bounds inv
  have power : 512 ^ (3 - (level - 1)) = 512 ^ (3 - level) * 512 := by
    rw [← Nat.pow_succ]
    congr 1
    omega
  rw [power, ← Nat.div_div_eq_div_mul, Nat.mul_div_cancel _ (Nat.pow_pos (by omega))]
  omega

theorem HasFolded.protected (inPar : rd.addrInPar ipa = true) {j : Nat} (index : j < 512) :
    Rtt.ProtectedEntry level (w j) :=
  protected_entry inv folded.realm (folded.before j index) (folded.bounds inv).2.1
    ((folded.half inv (folded.first_below inv index)).mpr inPar)

theorem HasFolded.unprotected (outside : ¬rd.addrInPar ipa = true) {j : Nat} (index : j < 512) :
    S2tte.isTable (w j) level = true ∨ (S2tte.view level (w j)).Unprotected :=
  unprotected_entry inv folded.realm (folded.before j index) (folded.bounds inv).2.1
    fun inPar => outside ((folded.half inv (folded.first_below inv index)).mp inPar)

/-- A table of tables is replaced by an entry that is unassigned and empty. -/
theorem HasFolded.view_table (table : S2tte.isTable (w 0) level = true) : S2tte.view (level - 1) new = .unassigned 0 :=
  Rtt.view_fold_table table (inv.tables.plain (folded.first inv) table) folded.made

/-- A table of leaves of the protected half is replaced by an entry of the same view. -/
theorem HasFolded.views (inPar : rd.addrInPar ipa = true) (leaf : S2tte.isTable (w 0) level = false) :
    (S2tte.view (level - 1) new).isTable = false ∧ ∀ j < 512, S2tte.view (level - 1 + 1) (w j) =
      (S2tte.view (level - 1) new).at_ (j * 512 ^ (3 - (level - 1 + 1))) := by
  obtain ⟨low, high, _⟩ := folded.bounds inv
  have huge : level = 1 → ∃ j < 512, ∀ pa, S2tte.view 1 (w j) ≠ .ram pa := by
    intro first
    refine not_all_huge inv (a := a) (q := ipa / 4096 / 512 ^ (3 - (level - 1))) fun j index => ?_
    have stored := folded.before j index
    rwa [first] at stored ⊢
  have made := folded.made
  rw [inPar] at made
  rw [Nat.sub_add_cancel (by omega)]
  rcases Rtt.fold_protected (fun j index => folded.protected inv inPar index) (by omega) high huge folded.same made with
    ⟨all, _⟩ | ⟨v, rfl, plain, views⟩
  · exact nomatch leaf.symm.trans (all 0 (by omega))
  · exact ⟨plain, views⟩

/-- If one entry of a table of the unprotected half is mapped, all are. -/
theorem HasFolded.all_ns (outside : ¬rd.addrInPar ipa = true) (first : S2tte.isAssignedNs (w 0) level = true) {j : Nat}
    (index : j < 512) : S2tte.isAssignedNs (w j) level = true := by
  have desc := Rtt.homogeneous_desc folded.same index
  rw [S2tte.isAssignedNs_iff] at first ⊢
  rcases folded.unprotected inv outside index with table | fits
  · rw [S2tte.isTable_iff] at table
    omega
  · rcases fits.cases with view | view | ⟨pa, view⟩
    · have := (S2tte.isUnassigned_iff _).mp (S2tte.isUnassigned_of_view view).1
      omega
    · have := (S2tte.isUnassignedNs_iff _).mp (S2tte.isUnassignedNs_of_view view)
      omega
    · have := S2tte.ns_of_view view
      omega

/-- If one entry of a table of the unprotected half is neither mapped nor a table, no entry is, and neither is the one
that replaces them. -/
theorem HasFolded.all_vacant (outside : ¬rd.addrInPar ipa = true) (first : (S2tte.view level (w 0)).Vacant) :
    (S2tte.view (level - 1) new).Vacant ∧
      ∀ j < 512, S2tte.isTable (w j) level = false ∧ (S2tte.view level (w j)).Vacant := by
  have zero : S2tte.descNum (w 0) = 0 := by
    rcases first.cases with ⟨ripas, view⟩ | view
    · exact ((S2tte.isUnassigned_iff _).mp (S2tte.isUnassigned_of_view view).1).1
    · exact ((S2tte.isUnassignedNs_iff _).mp (S2tte.isUnassignedNs_of_view view)).1
  have vacant : ∀ j < 512, S2tte.isTable (w j) level = false ∧ (S2tte.view level (w j)).Vacant := by
    intro j index
    have desc := Rtt.homogeneous_desc folded.same index
    have plain : S2tte.isTable (w j) level = false := by
      rw [← Bool.not_eq_true, S2tte.isTable_iff]
      omega
    refine ⟨plain, ?_⟩
    have fits := (folded.unprotected inv outside index).resolve_left (by rw [plain]; exact nofun)
    rcases fits.cases with view | view | ⟨pa, view⟩
    · rw [view]; exact trivial
    · rw [view]; exact trivial
    · have := S2tte.ns_of_view view
      omega
  refine ⟨?_, vacant⟩
  have notMapped : ¬(S2tte.isAssignedRam (w 0) level = true ∨ S2tte.isAssignedNs (w 0) level = true) := by
    rw [S2tte.isAssignedRam_iff, S2tte.isAssignedNs_iff]
    omega
  have notAssigned : ¬S2tte.isAssigned (w 0) = true := by
    intro holds
    obtain ⟨low, high, _⟩ := folded.bounds inv
    rw [S2tte.view_of_isAssigned holds (by omega) high] at first
    exact first
  obtain ⟨desc, hipas, _⟩ := Rtt.foldDesc_plain notMapped notAssigned folded.made
  rw [Rtt.view_attr desc hipas]
  split <;> exact trivial

end Folded

/-! ### The address space -/

/-- RTT_FOLD has changed neither what is said about a page nor anything else, and the entry that it has left is reported
as what its pages are. -/
structure Machine.FoldKeeps (s t : Machine) (rdW ipaW levelW : Word) : Prop where
  pages : ∀ {rd g v}, s.core.realm? rdW.toNat = some rd → ipaW.toNat ≤ g * 4096 →
    g * 4096 < ipaW.toNat + 2 ^ (39 - 9 * (levelW.toNat - 1)) → s.core.Page rdW.toNat g v →
    ∃ w, t.core.Page rdW.toNat g w ∧ rd.SameEntry g v w
  others : LeavesKept s.core t.core rdW.toNat ipaW.toNat (ipaW.toNat + 2 ^ (39 - 9 * (levelW.toNat - 1)))
  reads : ∃ state desc, t.ReadsBack rdW ipaW (levelW - 1) state desc ∧ ∀ {g v}, ipaW.toNat ≤ g * 4096 →
    g * 4096 < ipaW.toNat + 2 ^ (39 - 9 * (levelW.toNat - 1)) → s.core.Page rdW.toNat g v → v.Reads state

/-- The table starts neither with a block, nor with a table, unless all pages below it are empty and have no granule. -/
def Core.FoldsSound (c : Core) (a ipa level : Nat) : Prop :=
  ∃ rd first, c.realm? a = some rd ∧ c.forest.entry a level (ipa / 4096 / 512 ^ (3 - level)) = some first ∧
    getMaskedValue first S2tte.descType ≠ S2tte.l012Block ∧
    (S2tte.isTable first level = true → ∀ {g v}, ipa ≤ g * 4096 → g * 4096 < ipa + 2 ^ (39 - 9 * (level - 1)) →
      c.Page a g v → v = .unassigned 0 ∨ ¬rd.inPar g ∧ v = .unassignedNs)

section Space

variable {rdW ipaW levelW : Word}
  (folded : HasFolded s.core t.core rdW.toNat ipaW.toNat levelW.toNat rd w new) (inv : s.core.Inv)

include folded inv

theorem HasFolded.parentLevel : (levelW - 1).toNat = levelW.toNat - 1 := by
  obtain ⟨low, high, _⟩ := folded.bounds inv
  rw [BitVec.toNat_sub]
  have : (1 : Word).toNat = 1 := rfl
  omega

/-- The entry that has replaced the table is reported by what it says. -/
theorem HasFolded.readsBack (inv' : t.core.Inv) {view : Nat × Word × Nat}
    (known : Rtt.entryView new (levelW.toNat - 1) = some view) :
    t.ReadsBack rdW ipaW (levelW - 1) view.1 view.2.1 := by
  have parent := folded.parentLevel inv
  have accepted := folded.accepted
  unfold isValidTableCmd at accepted
  simp only [Bool.not_eq_true', Bool.or_eq_false_iff, Bool.not_eq_false'] at accepted
  refine Machine.readsBack (e := new) inv' ((folded.realms _).trans folded.realm) ?_ ?_ ?_
  · rw [parent]
    exact accepted.2
  · rw [parent]
    exact folded.after
  · rw [parent]
    exact known

/-- Blocks are not folded well: those of a gigabyte disappear, and those of two megabytes become one of a gigabyte, which
is reported as unassigned. -/
theorem HasFolded.not_block (inv' : t.core.Inv) (keeps : s.FoldKeeps t rdW ipaW levelW) : S2tte.descNum (w 0) ≠ 1 := by
  intro block
  obtain ⟨low, high, aligned⟩ := folded.bounds inv
  have positive : 0 < 2 ^ (39 - 9 * (levelW.toNat - 1)) := Nat.two_pow_pos _
  have start := page_aligned (show levelW.toNat - 1 ≤ 3 by omega) aligned
  have leaf : S2tte.isTable (w 0) levelW.toNat = false := by
    rw [← Bool.not_eq_true, S2tte.isTable_iff]
    omega
  have page := folded.first_page inv leaf
  -- the first page is mapped, and its entry is of level 1 or 2
  obtain ⟨mapped, levels⟩ : (∃ pa, S2tte.view levelW.toNat (w 0) = .ram pa ∨ S2tte.view levelW.toNat (w 0) = .ns pa) ∧
      (levelW.toNat = 1 ∨ levelW.toNat = 2) := by
    by_cases inPar : rd.addrInPar ipaW.toNat = true
    · rcases (folded.protected inv inPar (show 0 < 512 by omega)).cases with table | ⟨free, _⟩ | ⟨held, _⟩ |
        ⟨_, _, _, view, desc⟩
      · exact nomatch leaf.symm.trans table
      · rw [S2tte.isUnassigned_iff] at free
        omega
      · rw [S2tte.isAssigned_iff] at held
        omega
      · exact ⟨⟨_, .inl view⟩, by omega⟩
    · have fits := (folded.unprotected inv inPar (show 0 < 512 by omega)).resolve_left (by rw [leaf]; exact nofun)
      rcases fits.cases with view | view | ⟨pa, view⟩
      · have := (S2tte.isUnassigned_iff _).mp (S2tte.isUnassigned_of_view view).1
        omega
      · have := (S2tte.isUnassignedNs_iff _).mp (S2tte.isUnassignedNs_of_view view)
        omega
      · have := S2tte.ns_of_view view
        exact ⟨⟨pa, .inr view⟩, by omega⟩
  have notVacant : ¬((S2tte.view levelW.toNat (w 0)).at_
      (ipaW.toNat / 4096 % 512 ^ (3 - levelW.toNat))).Vacant := by
    rw [View.vacant_at]
    obtain ⟨pa, view | view⟩ := mapped
    · rw [view]; exact id
    · rw [view]; exact id
  rcases levels with one | two
  · have notMapped : ¬(S2tte.isAssignedRam (w 0) levelW.toNat = true ∨ S2tte.isAssignedNs (w 0) levelW.toNat = true) := by
      rw [S2tte.isAssignedRam_iff, S2tte.isAssignedNs_iff]
      omega
    have notAssigned : ¬S2tte.isAssigned (w 0) = true := by
      rw [S2tte.isAssigned_iff]
      omega
    obtain ⟨desc, hipas, _⟩ := Rtt.foldDesc_plain notMapped notAssigned folded.made
    have vacant : (S2tte.view (levelW.toNat - 1) new).Vacant := by
      rw [Rtt.view_attr desc hipas]
      split <;> exact trivial
    obtain ⟨w', after, same⟩ := keeps.pages folded.realm (by omega) (by omega) page
    rw [after.unique (folded.page_after inv (by omega) (by omega))] at same
    exact notVacant (same.vacant_iff.mp ((View.vacant_at _ _).mpr vacant))
  · obtain ⟨state, d, reads, each⟩ := keeps.reads
    have parent := folded.parentLevel inv
    have folds : S2tte.isAssignedRam (w 0) levelW.toNat = true ∨ S2tte.isAssignedNs (w 0) levelW.toNat = true := by
      rw [S2tte.isAssignedRam_iff, S2tte.isAssignedNs_iff]
      omega
    have desc : S2tte.descNum new = 1 := by
      obtain ⟨attr, newDesc, _⟩ := Rtt.fields_foldAttr (w 0)
      have whole : S2tte.IsPage (getMasked (w 0) (S2tte.blockMask levelW.toNat)) :=
        (Rtt.isPage_block (by omega) high).1
      rw [Rtt.foldDesc_mapped folds folded.made, (S2tte.madeOf_or whole attr (Nat.le_refl 3) whole.aligned).desc,
        newDesc]
    have entry := folded.after
    rw [← parent] at entry
    obtain ⟨view, known, rfl⟩ := reads.entryView inv' entry
    rw [parent, two, Rtt.entryView_of_huge desc] at known
    cases known
    rcases each (by omega) (by omega) page with ⟨vacant, _⟩ | ⟨_, wrong⟩
    · exact notVacant vacant
    · exact nomatch wrong

/-- A table whose entries continue the entry that has replaced it. -/
theorem HasFolded.keeps_of_views (inv' : t.core.Inv) (plain : (S2tte.view (levelW.toNat - 1) new).isTable = false)
    (views : ∀ j < 512, S2tte.view (levelW.toNat - 1 + 1) (w j) =
      (S2tte.view (levelW.toNat - 1) new).at_ (j * 512 ^ (3 - (levelW.toNat - 1 + 1))))
    (known : ∃ state d r, Rtt.entryView new (levelW.toNat - 1) = some (state, d, r) ∧
      (S2tte.view (levelW.toNat - 1) new).Reads state) : s.FoldKeeps t rdW ipaW levelW := by
  obtain ⟨low, high, _⟩ := folded.bounds inv
  have before : ∀ {g v}, ipaW.toNat ≤ g * 4096 → g * 4096 < ipaW.toNat + 2 ^ (39 - 9 * (levelW.toNat - 1)) →
      s.core.Page rdW.toNat g v → v = (S2tte.view (levelW.toNat - 1) new).at_ (g % 512 ^ (3 - (levelW.toNat - 1))) :=
    fun lower upper page => page.unique
      (page_of_entries (by omega) (folded.entries inv) (folded.below inv lower upper) plain views)
  obtain ⟨state, d, r, known, each⟩ := known
  refine ⟨fun {rd' g v} _ lower upper page => ?_, folded.kept, state, d, folded.readsBack inv inv' known,
    fun {g v} lower upper page => ?_⟩
  · refine ⟨_, folded.page_after inv lower upper, ?_⟩
    rw [before lower upper page]
    exact Rd.SameEntry.refl _
  · rw [before lower upper page, View.reads_at]
    exact each

/-- A table of the protected half that does not start with a block. -/
theorem HasFolded.keeps_protected (inv' : t.core.Inv) (inPar : rd.addrInPar ipaW.toNat = true)
    (leaf : S2tte.isTable (w 0) levelW.toNat = false) (small : S2tte.descNum (w 0) ≠ 1) :
    s.FoldKeeps t rdW ipaW levelW := by
  obtain ⟨low, high, _⟩ := folded.bounds inv
  obtain ⟨plain, views⟩ := folded.views inv inPar leaf
  have first := views 0 (by omega)
  rw [Nat.zero_mul, View.at_zero, Nat.sub_add_cancel (by omega)] at first
  refine folded.keeps_of_views inv inv' plain views ?_
  rcases (folded.protected inv inPar (show 0 < 512 by omega)).cases with table | ⟨_, view⟩ | ⟨_, _, _, view⟩ |
    ⟨_, _, _, view, desc⟩
  · exact nomatch leaf.symm.trans table
  · rw [first] at view
    have vacant : (S2tte.view (levelW.toNat - 1) new).Vacant := by rw [view]; exact trivial
    obtain ⟨d, r, known⟩ := Rtt.entryView_vacant vacant
    exact ⟨_, d, r, known, .inl ⟨vacant, rfl⟩⟩
  · rw [first] at view
    obtain ⟨holds, deep, bottom, _⟩ := S2tte.isAssigned_of_view view
    exact ⟨_, _, _, Rtt.entryView_of_isAssigned holds deep bottom, .inr ⟨by rw [view]; exact id, rfl⟩⟩
  · rw [first] at view
    obtain bottom : levelW.toNat - 1 = 2 := by omega
    rw [bottom] at view ⊢
    obtain ⟨d, r, known⟩ := Rtt.entryView_ram view
    exact ⟨_, d, r, known, .inr ⟨by rw [view]; exact id, rfl⟩⟩

/-- A table of the unprotected half that does not start with a block. -/
theorem HasFolded.keeps_unprotected (inv' : t.core.Inv) (outside : ¬rd.addrInPar ipaW.toNat = true)
    (leaf : S2tte.isTable (w 0) levelW.toNat = false) (small : S2tte.descNum (w 0) ≠ 1) :
    s.FoldKeeps t rdW ipaW levelW := by
  obtain ⟨low, high, _⟩ := folded.bounds inv
  have fits := (folded.unprotected inv outside (show 0 < 512 by omega)).resolve_left (by rw [leaf]; exact nofun)
  by_cases vacant : (S2tte.view levelW.toNat (w 0)).Vacant
  · obtain ⟨empty, all⟩ := folded.all_vacant inv outside vacant
    have before : ∀ {g v}, ipaW.toNat ≤ g * 4096 → g * 4096 < ipaW.toNat + 2 ^ (39 - 9 * (levelW.toNat - 1)) →
        s.core.Page rdW.toNat g v → v.Vacant := by
      intro g v lower upper page
      obtain ⟨plain, empty⟩ := all (g / 512 ^ (3 - levelW.toNat) % 512) (Nat.mod_lt _ (by omega))
      have found := page_in_table (show levelW.toNat - 1 < 3 by omega) (folded.entries inv)
        (folded.below inv lower upper) (by rw [Nat.sub_add_cancel (by omega)]; exact plain)
      rw [Nat.sub_add_cancel (by omega)] at found
      rw [page.unique found, View.vacant_at]
      exact empty
    obtain ⟨d, r, known⟩ := Rtt.entryView_vacant empty
    refine ⟨fun {rd' g v} realm lower upper page => ⟨_, folded.page_after inv lower upper, ?_⟩, folded.kept, _, d,
      folded.readsBack inv inv' known, fun lower upper page => .inl ⟨before lower upper page, rfl⟩⟩
    cases folded.realm.symm.trans realm
    have notPar : ¬rd.inPar g := fun inPar => outside ((folded.half inv (folded.below inv lower upper)).mp inPar)
    have old := inv.tables.pages realm page
    have new := inv'.tables.pages ((folded.realms _).trans realm) (folded.page_after inv lower upper)
    rw [Rd.Fits, if_neg notPar] at old new
    rw [Rd.SameEntry, if_neg notPar, old.ignoreNs (before lower upper page),
      new.ignoreNs ((View.vacant_at _ _).mpr empty)]
  · rcases fits.cases with view | view | ⟨pa, view⟩
    · rw [view] at vacant; exact absurd trivial vacant
    · rw [view] at vacant; exact absurd trivial vacant
    · obtain ⟨_, _, _, _, desc⟩ := S2tte.ns_of_view view
      have isNs : S2tte.isAssignedNs (w 0) levelW.toNat = true := by
        rw [S2tte.isAssignedNs_iff]
        have := S2tte.ns_of_view view
        omega
      obtain ⟨block, views⟩ := Rtt.fold_ns high (fun j index => folded.all_ns inv outside isNs index) folded.same
        folded.made
      rw [← block] at views
      refine folded.keeps_of_views inv inv' (by rw [block]; rfl) (by rwa [Nat.sub_add_cancel (by omega)]) ?_
      obtain bottom : levelW.toNat - 1 = 2 := by omega
      rw [bottom] at block ⊢
      obtain ⟨d, r, known⟩ := Rtt.entryView_ns block
      exact ⟨_, d, r, known, .inr ⟨by rw [block]; exact id, rfl⟩⟩

end Space

/-! ### Tables that are folded -/

/-! ### The address space after a fold -/

/-- A successful RTT_FOLD preserves the address space, exactly if the table does not start with a block, nor with a table
unless all that is below it is empty. -/
theorem Machine.Reachable.fold_keeps {rdW ipaW levelW : Word} (reached : s.Reachable)
    (done : s.Succeeds (.rttFold rdW ipaW levelW) t) :
    s.FoldKeeps t rdW ipaW levelW ↔ s.core.FoldsSound rdW.toNat ipaW.toNat levelW.toNat := by
  have inv := reached.inv
  have inv' := (reached.succeeds done).inv
  obtain ⟨_, rd, w, new, folded, _⟩ := done.post (rttFold_spec (s := s.start) rdW ipaW levelW inv rfl rfl rfl rfl rfl)
  have folded : HasFolded s.core t.core rdW.toNat ipaW.toNat levelW.toNat rd w new := folded
  constructor
  · intro keeps
    refine ⟨rd, w 0, folded.realm, folded.first inv, ?_, fun table {g v} lower upper page => ?_⟩
    · rw [Ne, S2tte.descType_eq]
      exact folded.not_block inv inv' keeps
    · obtain ⟨w', after, same⟩ := keeps.pages folded.realm lower upper page
      rw [after.unique (folded.page_after inv lower upper), folded.view_table inv table] at same
      by_cases inPar : rd.inPar g
      · rw [Rd.SameEntry, if_pos inPar] at same
        exact .inl same.symm
      · rw [Rd.SameEntry, if_neg inPar] at same
        have fits := inv.tables.pages folded.realm page
        rw [Rd.Fits, if_neg inPar] at fits
        rcases fits.cases with rfl | rfl | ⟨pa, rfl⟩
        · exact .inl rfl
        · exact .inr ⟨inPar, rfl⟩
        · cases same
  · rintro ⟨rd', first, realm, entry, small, empty⟩
    cases folded.realm.symm.trans realm
    cases (folded.first inv).symm.trans entry
    rw [Ne, S2tte.descType_eq] at small
    cases table : S2tte.isTable (w 0) levelW.toNat with
    | false =>
      by_cases inPar : rd.addrInPar ipaW.toNat = true
      · exact folded.keeps_protected inv inv' inPar table small
      · exact folded.keeps_unprotected inv inv' inPar table small
    | true =>
      have view := folded.view_table inv table
      obtain ⟨d, r, known⟩ := Rtt.entryView_vacant (show (S2tte.view (levelW.toNat - 1) new).Vacant by
        rw [view]; exact trivial)
      refine ⟨fun {rd' g v} realm lower upper page => ⟨_, folded.page_after inv lower upper, ?_⟩, folded.kept, _, d,
        folded.readsBack inv inv' known, fun lower upper page => .inl ⟨?_, rfl⟩⟩
      · cases folded.realm.symm.trans realm
        rw [view]
        rcases empty table lower upper page with rfl | ⟨outside, rfl⟩
        · exact Rd.SameEntry.refl _
        · rw [Rd.SameEntry, if_neg outside]
          rfl
      · rcases empty table lower upper page with rfl | ⟨_, rfl⟩
        · exact trivial
        · exact trivial

namespace Sample

/-- A block of two megabytes that the host has mapped is split into a table of pages. -/
def cut : Machine := .prepared (Action.delegates 4 ++ Action.newRealm 1 39 ++ [Action.newTable 2 0x4000000000 2,
  .call (.rttMapUnprotected (BitVec.ofNat 64 (bankAt 0)) 0x4000000000 2 0), Action.newTable 3 0x4000000000 3])

theorem cut_via : cut.ReachableVia Prepares := Machine.prepared_via _

def cutPage (i : Nat) : Word := BitVec.ofNat 64 (i * 4096) ||| (bitsInReg S2tte.ns 1 ||| Rtt.leafDescType 3)

end Sample

open Sample in
omit [Platform] in
/-- The pages of a block that was split and is folded again. -/
theorem fold_keeps_pages : ∃ _ : Platform, ∃ s t : Machine, s.Reachable ∧
    s.Succeeds (.rttFold (BitVec.ofNat 64 (bankAt 0)) 0x4000000000#64 3#64) t ∧
    s.core.FoldsSound (bankAt 0) 0x4000000000 3 ∧
    s.FoldKeeps t (BitVec.ofNat 64 (bankAt 0)) 0x4000000000#64 3#64 := by
  have reached := cut_via.reachable
  have done : cut.Succeeds (.rttFold (BitVec.ofNat 64 (bankAt 0)) 0x4000000000#64 3#64) _ :=
    Machine.succeeds_of_result (by decide +kernel)
  obtain ⟨rd, realm⟩ := Option.isSome_iff_exists.mp (show (cut.core.realm? (bankAt 0)).isSome = true by decide +kernel)
  have sound : cut.core.FoldsSound (bankAt 0) 0x4000000000 3 := ⟨rd, cutPage 0, realm, by decide +kernel, by decide, nofun⟩
  exact ⟨platform, cut, _, reached, done, sound, (reached.fold_keeps done).mpr sound⟩

omit [Platform] in
/-- RTT_FOLD of a table that is full of tables says of a page of RAM that it is unassigned and empty. -/
theorem fold_forgets_ram : ∃ _ : Platform, ∃ s t : Machine, s.Reachable ∧
    s.Succeeds (.rttFold (BitVec.ofNat 64 (bankAt 0)) 0#64 2#64) t ∧
    s.core.Page (bankAt 0) 0 (.ram (bankAt 4)) ∧ t.core.Page (bankAt 0) 0 (.unassigned 0) ∧
    ¬s.FoldKeeps t (BitVec.ofNat 64 (bankAt 0)) 0#64 2#64 := by
  obtain ⟨platform, s, rd, reached, small, _, tables, page⟩ := exists_full
  obtain ⟨t, done, empty⟩ := small.foldsFull reached.inv tables
  refine ⟨platform, s, t, reached, done, page, empty, fun keeps => ?_⟩
  have rdEq := toNat_bankAt (i := 0) (by omega)
  obtain ⟨w, after, same⟩ := keeps.pages (g := 0) (rdEq ▸ small.realm) (by decide) (by decide) (rdEq ▸ page)
  rw [rdEq] at after
  rw [after.unique empty, Rd.SameEntry, if_pos small.inPar] at same
  exact nomatch same

/-! ### Access attributes -/

/-- The access attributes that `fold` takes over from the first entry. -/
def Rtt.foldedAttr : Word := S2tte.memattr ||| S2tte.s2ap ||| S2tte.sh

omit [Platform] in
/-- The block that replaces a table of mapped pages has those of the first page, and no others. -/
theorem Rtt.accessAttr_foldDesc {e : Word} {isProtected : Bool} (low : 1 ≤ level) (high : level ≤ 3)
    (mapped : S2tte.isAssignedRam e level = true ∨ S2tte.isAssignedNs e level = true)
    (made : Rtt.foldDesc e level isProtected = some new) :
    getMasked new S2tte.accessAttr = getMasked e Rtt.foldedAttr := by
  have address : getMasked (getMasked e (S2tte.blockMask level)) S2tte.accessAttr = 0#64 :=
    (Rtt.isPage_block low high).1.and_attr (by decide)
  have outer : getMasked (getMasked e S2tte.ns) S2tte.accessAttr = 0#64 := by
    unfold getMasked
    rw [BitVec.and_assoc, show S2tte.ns &&& S2tte.accessAttr = 0#64 by decide, BitVec.and_zero]
  have taken : getMasked (getMasked e (S2tte.memattr ||| S2tte.s2ap ||| S2tte.sh)) S2tte.accessAttr =
      getMasked e Rtt.foldedAttr := by
    unfold getMasked
    rw [BitVec.and_assoc, show (S2tte.memattr ||| S2tte.s2ap ||| S2tte.sh) &&& S2tte.accessAttr =
      Rtt.foldedAttr by decide]
  rw [Rtt.foldDesc_mapped mapped made, Rtt.foldAttr, getMasked_or, getMasked_or, getMasked_or, address, outer, taken,
    show getMasked S2tte.l012Block S2tte.accessAttr = 0#64 by decide, BitVec.zero_or, BitVec.zero_or, BitVec.or_zero]

omit [Platform] in
/-- A page has exactly the attributes that the block has from the first page. -/
theorem Rtt.accessAttr_eq_iff {e first : Word} : getMasked first Rtt.foldedAttr = getMasked e S2tte.accessAttr ↔
    getMasked e (S2tte.af ||| S2tte.xn) = 0#64 ∧ getMasked e Rtt.foldedAttr = getMasked first Rtt.foldedAttr := by
  have whole : Rtt.foldedAttr ||| (S2tte.af ||| S2tte.xn) = S2tte.accessAttr := by decide
  have part : ∀ e, getMasked (getMasked e S2tte.accessAttr) Rtt.foldedAttr = getMasked e Rtt.foldedAttr ∧
      getMasked (getMasked e Rtt.foldedAttr) Rtt.foldedAttr = getMasked e Rtt.foldedAttr := by
    intro e
    unfold getMasked
    rw [BitVec.and_assoc, show S2tte.accessAttr &&& Rtt.foldedAttr = Rtt.foldedAttr by decide, BitVec.and_assoc,
      BitVec.and_self]
    exact ⟨rfl, rfl⟩
  rw [← getMasked_eq_or_iff (show Rtt.foldedAttr &&& _ = 0#64 by decide), whole]
  constructor
  · intro same
    have folded : getMasked e Rtt.foldedAttr = getMasked first Rtt.foldedAttr := by
      rw [← (part e).1, ← same, (part first).2]
    exact ⟨folded.trans same, folded⟩
  · rintro ⟨kept, same⟩
    exact same.symm.trans kept

/-- The block that a table of pages was folded into gives every page the access attributes that it had. -/
def Machine.FoldKeepsAttr (s t : Machine) (a ipa : Nat) : Prop :=
  ∀ g, ipa ≤ g * 4096 → g * 4096 < ipa + 2 ^ 21 → ∃ e block, s.core.forest.Leaf 3 a g 3 e ∧
    t.core.forest.Leaf 3 a g 2 block ∧ getMasked block S2tte.accessAttr = getMasked e S2tte.accessAttr

theorem leaf_of_bottom {e : Word} (entry : c.forest.entry a 3 g = some e) : c.forest.Leaf 3 a g 3 e := by
  refine ⟨Nat.le_refl 3, ?_, forest_next_none ?_⟩
  · rw [Nat.sub_self, Nat.pow_zero, Nat.div_one]
    exact entry
  · rw [← Bool.not_eq_true, S2tte.isTable_iff]
    omega

/-- The entry for a page of a folded table, and when it had the access attributes of the block. -/
theorem HasFolded.page_attr (folded : HasFolded c c' a ipa 3 rd w new) (inv : c.Inv)
    (mapped : S2tte.isAssignedRam (w 0) 3 = true ∨ S2tte.isAssignedNs (w 0) 3 = true) {j : Nat} (index : j < 512) :
    c.forest.Leaf 3 a (ipa / 4096 + j) 3 (w j) ∧ c'.forest.Leaf 3 a (ipa / 4096 + j) 2 new ∧
      (getMasked new S2tte.accessAttr = getMasked (w j) S2tte.accessAttr ↔
        getMasked (w j) (S2tte.af ||| S2tte.xn) = 0#64 ∧
          getMasked (w j) Rtt.foldedAttr = getMasked (w 0) Rtt.foldedAttr) := by
  obtain ⟨_, _, aligned⟩ := folded.bounds inv
  have aligned : ipa % 2 ^ 21 = 0 := aligned
  refine ⟨leaf_of_bottom ?_, folded.leaf_after inv (by omega) (by simp; omega), ?_⟩
  · rw [← folded.before j index]
    congr 1
    simp
    omega
  · rw [Rtt.accessAttr_foldDesc (by omega) (Nat.le_refl 3) mapped folded.made]
    exact Rtt.accessAttr_eq_iff

/-- The pages that the host has mapped one by one, with the access flag and execute-never set. -/
structure Core.OuterPages (c : Core) (rd : Rd) (k : Nat) : Prop where
  realm : c.realm? (bankAt 0) = some rd
  level : rd.s2StartingLevel = 1
  bits : rd.ipaBits = 39
  mapped : ∀ j < k, c.forest.Leaf 3 (bankAt 0) (0x4000000 + j) 3 (Rtt.unprotectedDesc (BitVec.ofNat 64 (j * 4096)) 3)
  free : ∀ j, k ≤ j → j < 512 → ∃ e, c.forest.Leaf 3 (bankAt 0) (0x4000000 + j) 3 e ∧ S2tte.isUnassigned e = true

/-- One more page. -/
theorem Core.OuterPages.add {k : Nat} (outer : s.core.OuterPages rd k) (inv : s.core.Inv) (inside : k < 512) :
    ∃ t, s.Succeeds (.rttMapUnprotected (BitVec.ofNat 64 (bankAt 0)) (BitVec.ofNat 64 (0x4000000000 + k * 4096)) 3#64
      (BitVec.ofNat 64 (k * 4096))) t ∧ t.core.OuterPages rd (k + 1) := by
  have rdEq := toNat_bankAt (i := 0) (by omega)
  have ipaEq : (BitVec.ofNat 64 (0x4000000000 + k * 4096)).toNat = 0x4000000000 + k * 4096 := by
    rw [BitVec.toNat_ofNat]
    omega
  obtain ⟨e, leaf, free⟩ := outer.free k (by omega) inside
  have page : (0x4000000000 + k * 4096) / 4096 = 0x4000000 + k := by omega
  have ipaPage : S2tte.IsPage (BitVec.ofNat 64 (0x4000000000 + k * 4096)) := ⟨by omega, by omega⟩
  have ready : ReadyToMap s.core (BitVec.ofNat 64 (bankAt 0)).toNat (BitVec.ofNat 64 (0x4000000000 + k * 4096)).toNat
      (3#64).toNat (BitVec.ofNat 64 (k * 4096)) := by
    rw [rdEq, ipaEq]
    refine ⟨(Rtt.isPage_step inside).2.isHostNsValid, rd, outer.realm, ?_, ?_, e, ?_, free⟩
    · simp [isValidRttCmd, S2tte.rttPageLevel, Rd.ipaSize, outer.bits, S2tte.levelMask, ipaPage.and_addr]
      omega
    · simp [Rd.addrInPar, Rd.parSize, Rd.ipaSize, outer.bits]
    · rw [page]
      exact leaf.stored
  obtain ⟨t, done, mapped⟩ := Machine.mapsUnprotected _ _ _ _ inv ready
  obtain ⟨_, _, replaced⟩ := mapped.replaced
  rw [rdEq, ipaEq] at replaced
  have others : ∀ {j e}, j ≠ k → (t.core.forest.Leaf 3 (bankAt 0) (0x4000000 + j) 3 e ↔
      s.core.forest.Leaf 3 (bankAt 0) (0x4000000 + j) 3 e) := by
    intro j e other
    refine replaced.kept _ _ _ _ fun inside => other ?_
    have upper : (0x4000000 + j) * 4096 < 0x4000000000 + k * 4096 + 2 ^ 12 := inside.2.2
    omega
  refine ⟨t, done, (replaced.realms _).trans outer.realm, outer.level, outer.bits, fun j less => ?_, fun j low high => ?_⟩
  · by_cases last : j = k
    · subst last
      have after := replaced.after
      rw [page, show (3#64).toNat = 3 from rfl, Nat.sub_self, Nat.pow_zero, Nat.div_one] at after
      exact leaf_of_bottom after
    · exact (others last).mpr (outer.mapped j (by omega))
  · obtain ⟨e, leaf, free⟩ := outer.free j (by omega) high
    exact ⟨e, (others (by omega)).mpr leaf, free⟩

/-- All pages of a table for unprotected pages can be mapped. -/
theorem Machine.Reachable.outerPages (reached : s.Reachable) (empty : s.core.OuterPages rd 0) :
    ∀ k ≤ 512, ∃ t : Machine, t.Reachable ∧ t.core.OuterPages rd k
  | 0, _ => ⟨s, reached, empty⟩
  | k + 1, bound => by
    obtain ⟨s, reached, outer⟩ := outerPages reached empty k (by omega)
    obtain ⟨t, done, outer⟩ := outer.add reached.inv (by omega)
    exact ⟨t, reached.succeeds done, outer⟩

/-- A successful RTT_FOLD of a table of mapped pages gives every page the access attributes that it had, exactly if the
access flag and execute-never are clear in all of them, and the other attributes are the same. -/
theorem Machine.Reachable.fold_keeps_attr {rdW ipaW : Word} (reached : s.Reachable)
    (done : s.Succeeds (.rttFold rdW ipaW 3#64) t) (holds : TableHolds s.core rdW.toNat ipaW.toNat 3 w)
    (mapped : (∀ j < 512, S2tte.isAssignedRam (w j) 3 = true) ∨ ∀ j < 512, S2tte.isAssignedNs (w j) 3 = true) :
    s.FoldKeepsAttr t rdW.toNat ipaW.toNat ↔ ∀ j < 512, getMasked (w j) (S2tte.af ||| S2tte.xn) = 0#64 ∧
      getMasked (w j) Rtt.foldedAttr = getMasked (w 0) Rtt.foldedAttr := by
  have inv := reached.inv
  obtain ⟨_, rd, w', new, folded, _⟩ := done.post (rttFold_spec (s := s.start) rdW ipaW 3#64 inv rfl rfl rfl rfl rfl)
  have folded : HasFolded s.core t.core rdW.toNat ipaW.toNat 3 rd w' new := folded
  generalize rdW.toNat = a at folded holds ⊢
  generalize ipaW.toNat = ipa at folded holds ⊢
  have same : ∀ j < 512, w' j = w j := fun j index =>
    Option.some.inj ((folded.before j index).symm.trans (holds j index))
  have first : S2tte.isAssignedRam (w' 0) 3 = true ∨ S2tte.isAssignedNs (w' 0) 3 = true := by
    rw [same 0 (by omega)]
    exact mapped.imp (fun all => all 0 (by omega)) fun all => all 0 (by omega)
  obtain ⟨_, _, aligned⟩ := folded.bounds inv
  have aligned : ipa % 2 ^ 21 = 0 := aligned
  constructor
  · intro keeps j index
    obtain ⟨leaf, made, attr⟩ := folded.page_attr inv first index
    obtain ⟨e, block, old, new', equal⟩ := keeps (ipa / 4096 + j) (by omega) (by omega)
    obtain ⟨_, rfl⟩ := old.unique leaf
    obtain ⟨_, rfl⟩ := new'.unique made
    rw [← same j index, ← same 0 (by omega)]
    exact attr.mp equal
  · intro clear g lower upper
    obtain ⟨j, index, rfl⟩ : ∃ j < 512, g = ipa / 4096 + j := ⟨g - ipa / 4096, by omega, by omega⟩
    obtain ⟨leaf, made, attr⟩ := folded.page_attr inv first index
    refine ⟨_, _, leaf, made, attr.mpr ?_⟩
    rw [same j index, same 0 (by omega)]
    exact clear j index

open Sample in
omit [Platform] in
/-- A block that was split, and has lost the access flag and execute-never by that, is folded. -/
theorem fold_keeps_attr_pages : ∃ _ : Platform, ∃ (s t : Machine) (w : Nat → Word), s.Reachable ∧
    s.Succeeds (.rttFold (BitVec.ofNat 64 (bankAt 0)) 0x4000000000#64 3#64) t ∧
    TableHolds s.core (bankAt 0) 0x4000000000 3 w ∧ (∀ j < 512, S2tte.isAssignedNs (w j) 3 = true) ∧
    s.FoldKeepsAttr t (bankAt 0) 0x4000000000 := by
  have reached := cut_via.reachable
  have done : cut.Succeeds (.rttFold (BitVec.ofNat 64 (bankAt 0)) 0x4000000000#64 3#64) _ :=
    Machine.succeeds_of_result (by decide +kernel)
  have node : cut.core.forest.node (bankAt 0) 3 0x20000 = some (bankAt 3) := by decide +kernel
  have pages : ∀ j < 512, cut.core.forest.read (bankAt 3) j = cutPage j := by decide +kernel
  have holds : TableHolds cut.core (bankAt 0) 0x4000000000 3 cutPage := fun j index =>
    (Forest.entry_of_node node index).trans (congrArg some (pages j index))
  have mapped : ∀ j < 512, S2tte.isAssignedNs (cutPage j) 3 = true := by decide +kernel
  refine ⟨platform, cut, _, cutPage, reached, done, holds, mapped, ?_⟩
  exact (reached.fold_keeps_attr done holds (.inr mapped)).mpr (by decide +kernel)

open Sample in
omit [Platform] in
/-- The pages that the host has mapped one by one lose the access flag and execute-never when they are folded. -/
theorem fold_loses_attr : ∃ _ : Platform, ∃ (s t : Machine) (w : Nat → Word), s.Reachable ∧
    s.Succeeds (.rttFold (BitVec.ofNat 64 (bankAt 0)) 0x4000000000#64 3#64) t ∧
    TableHolds s.core (bankAt 0) 0x4000000000 3 w ∧ (∀ j < 512, S2tte.isAssignedNs (w j) 3 = true) ∧
    ¬s.FoldKeepsAttr t (bankAt 0) 0x4000000000 := by
  let s₀ := Machine.prepared (Action.delegates 4 ++ Action.newRealm 1 39 ++
    [Action.newTable 2 0x4000000000 2, Action.newTable 3 0x4000000000 3])
  obtain ⟨rd, realm, kind⟩ := (Option.any_eq_true (fun rd => rd.s2StartingLevel = 1 ∧ rd.ipaBits = 39)
    (s₀.core.realm? (bankAt 0))).mp (by decide +kernel)
  obtain ⟨level, bits⟩ := of_decide_eq_true kind
  have node : s₀.core.forest.node (bankAt 0) 3 0x20000 = some (bankAt 3) := by decide +kernel
  have empty : ∀ j < 512, s₀.core.forest.read (bankAt 3) j = 0 := by decide +kernel
  have start : s₀.core.OuterPages rd 0 := ⟨realm, level, bits, nofun, fun j _ index =>
    ⟨0, leaf_of_bottom ((Forest.entry_of_node node index).trans (congrArg some (empty j index))), by decide⟩⟩
  obtain ⟨s, reached, outer⟩ := (Machine.prepared_via _).reachable.outerPages start 512 (by omega)
  let page (j : Nat) : Word := Rtt.unprotectedDesc (BitVec.ofNat 64 (j * 4096)) 3
  have holds : TableHolds s.core (bankAt 0) 0x4000000000 3 page := by
    intro j index
    have stored := (outer.mapped j index).stored
    rw [Nat.sub_self, Nat.pow_zero, Nat.div_one] at stored
    exact stored
  have accepted : isValidTableCmd rd 0x4000000000 3 = true := by
    simp [isValidTableCmd, isValidRttCmd, S2tte.rttPageLevel, outer.level, Rd.ipaSize, outer.bits, S2tte.levelMask]
    decide
  have half : rd.addrInPar 0x4000000000 = false := by
    simp [Rd.addrInPar, Rd.parSize, Rd.ipaSize, outer.bits]
  have mapped : ∀ j < 512, S2tte.isAssignedNs (page j) 3 = true := by decide +kernel
  have same : S2tte.isHomogeneous ((List.range 512).map page) 3 = true := by decide +kernel
  have made : Rtt.foldDesc (page 0) 3 (rd.addrInPar 0x4000000000) ≠ none := by
    rw [half]
    decide
  obtain ⟨t, done, _⟩ := Machine.succeeds_of_wp s (.rttFold (BitVec.ofNat 64 (bankAt 0)) 0x4000000000#64 3#64)
    (rttFold_spec _ _ _ reached.inv rfl rfl rfl rfl rfl)
    fun _ _ stops => stops.1.1 ⟨rd, outer.realm, accepted, page, holds, same, made⟩
  refine ⟨platform, s, t, page, reached, done, holds, mapped, fun keeps => ?_⟩
  obtain ⟨_, rd', w, new, folded, _⟩ := done.post (rttFold_spec (s := s.start) _ _ _ reached.inv rfl rfl rfl rfl rfl)
  have folded : HasFolded s.core t.core (bankAt 0) 0x4000000000 3 rd' w new := folded
  have first : w 0 = page 0 := Option.some.inj ((folded.before 0 (by omega)).symm.trans (holds 0 (by omega)))
  obtain ⟨leaf, made, attr⟩ := folded.page_attr reached.inv (.inr (first ▸ mapped 0 (by omega))) (show 0 < 512 by omega)
  obtain ⟨e, block, old, new', equal⟩ := keeps 0x4000000 (by omega) (by omega)
  obtain ⟨_, rfl⟩ := old.unique leaf
  obtain ⟨_, rfl⟩ := new'.unique made
  obtain ⟨clear, _⟩ := attr.mp equal
  rw [first] at clear
  exact absurd clear (by decide)

end Islet.Rmm
