import Islet.Rmm.Runs

/-! Who owns what, in every state that a run reaches: each granule of a realm is
named by one descriptor of one realm, the two halves of an IPA space never meet in
an entry, and VMIDs, translation tables and realm descriptors agree. -/

namespace Islet.Rmm

open Lib Prog Bits Rmi Stage2Translation

variable [Platform] {c : Core} {s : Machine} {a a' l l' q q' x : Nat} {rd : Rd}

/-! ### Memory of realms -/

/-- The entry is no table, and is hardware-valid or has HIPAS = ASSIGNED. -/
def S2tte.GivesMemory (e : Word) (level : Nat) : Prop :=
  isTable e level = false ∧
    (getMaskedValue e valid = 1 ∨ getMaskedValue e invalidHipas = assigned)

/-- Entry `q` of level `l` in the tables of the realm at `a` points to the table `x`. -/
def Core.Points (c : Core) (a l q x : Nat) : Prop :=
  ∃ e, c.forest.entry a l q = some e ∧ S2tte.isTable e l = true ∧ (getMasked e S2tte.addrTblOrPage).toNat = x

/-- Entry `q` of level `l`, at a protected IPA, gives the realm at `a` the granule `x`. -/
def Core.Covers (c : Core) (a l q x : Nat) : Prop :=
  ∃ rd e, c.realm? a = some rd ∧ c.forest.entry a l q = some e ∧ S2tte.GivesMemory e l ∧
    rd.addrInPar (q * 512 ^ (3 - l) * 4096) = true ∧
    ∃ k < 512 ^ (3 - l), x = (getMasked e (S2tte.blockMask l)).toNat + 4096 * k

/-- The granule is a root table of a realm. -/
def Core.IsRoot (c : Core) (x : Nat) : Prop := ∃ a rd, c.realm? a = some rd ∧ rd.IsRoot x

theorem Core.Points.node (points : c.Points a l q x) : c.forest.node a (l + 1) q = some x := by
  obtain ⟨e, stored, table, rfl⟩ := points
  obtain ⟨b, place, _⟩ := Forest.node_of_entry stored
  rw [Forest.node_succ (Forest.top_le_of_node place), stored, Option.bind_some, Core.forest_next, if_pos table,
    S2tte.toNat_addrTblOrPage]

theorem Core.IsRoot.node (root : c.IsRoot x) : ∃ a p, c.forest.node a (c.forest.top a) p = some x := by
  obtain ⟨a, rd, realm, p, inside, rfl⟩ := root
  exact ⟨a, p, by rw [Forest.node_top, Core.forest_root realm, if_pos inside]⟩

omit [Platform] in
/-- What an entry of the protected half that gives memory says. -/
theorem S2tte.backing_of_givesMemory {e : Word} {level : Nat} (gives : S2tte.GivesMemory e level)
    (fits : (S2tte.view level e).Protected) :
    1 ≤ level ∧ (S2tte.view level e).backing? = some (S2tte.outAddr e level) := by
  obtain ⟨_, given⟩ := gives
  cases meaning : S2tte.view level e with
  | ram pa =>
    obtain ⟨_, rfl, low, _⟩ := S2tte.mapped_of_view meaning
    exact ⟨low, rfl⟩
  | assigned pa ripas =>
    obtain ⟨_, low, _, rfl, _⟩ := S2tte.isAssigned_of_view meaning
    exact ⟨low, rfl⟩
  | unassigned ripas =>
    obtain ⟨desc, hipas, _⟩ := (S2tte.isUnassigned_iff e).mp (S2tte.isUnassigned_of_view meaning).1
    rcases given with valid | assigned
    · have bit : e.toNat / 2 ^ 0 % 2 ^ 1 = 1 := (S2tte.field_eq_iff (by omega) (by omega)).mp valid
      unfold S2tte.descNum at desc
      omega
    · have : S2tte.hipasNum e = 1 := S2tte.hipas_eq.mp assigned
      omega
  | table addr => rw [meaning] at fits; exact fits.elim
  | unassignedNs => rw [meaning] at fits; exact fits.elim
  | ns pa => rw [meaning] at fits; exact fits.elim
  | malformed => rw [meaning] at fits; exact fits.elim

/-- A granule that an entry gives is behind a page, and the entry is where the descent for it stops. -/
theorem Core.Covers.page (inv : c.Inv) (covers : c.Covers a l q x) :
    ∃ g v e, g / 512 ^ (3 - l) = q ∧ c.forest.Leaf 3 a g l e ∧ c.Page a g v ∧ v.backing? = some x := by
  obtain ⟨rd, e, realm, stored, gives, inside, k, less, rfl⟩ := covers
  obtain ⟨b, place, _⟩ := Forest.node_of_entry stored
  obtain ⟨_, found, low, high⟩ := inv.realms.realm_of_node place
  cases realm.symm.trans found
  obtain ⟨block, offset⟩ := page_of_block (q := q) less
  generalize gEq : q * 512 ^ (3 - l) + k = g at block offset
  have first : (q * 512 ^ (3 - l)) / 512 ^ (3 - l) = q := Nat.mul_div_cancel _ (Nat.pow_pos (by omega))
  have inPar : rd.inPar g :=
    ((inv.realms.shape realm).half low high (block.trans first.symm)).mpr (of_decide_eq_true inside)
  have page := Core.Page.of_entry stored gives.1 high block
  have fits := inv.tables.pages realm page
  rw [Rd.fits_at, Rd.Fits, if_pos inPar] at fits
  obtain ⟨positive, backing⟩ := S2tte.backing_of_givesMemory gives fits
  refine ⟨g, _, e, block, ⟨high, by rw [block]; exact stored, forest_next_none gives.1⟩, page, ?_⟩
  rw [backing_at, backing, offset, S2tte.toNat_blockMask positive high]
  rfl

/-- Two entries that give the same granule are one. -/
theorem Core.Covers.unique (inv : c.Inv) (left : c.Covers a l q x) (right : c.Covers a' l' q' x) :
    a = a' ∧ l = l' ∧ q = q' := by
  obtain ⟨g, v, e, block, leaf, page, backing⟩ := left.page inv
  obtain ⟨g', v', e', block', leaf', page', backing'⟩ := right.page inv
  obtain ⟨rfl, rfl⟩ := inv.tables.backed_inj page page' backing backing'
  obtain ⟨rfl, rfl⟩ := leaf.unique leaf'
  exact ⟨rfl, rfl, block.symm.trans block'⟩

open Sample in
omit [Platform] in
/-- A block of the other half is not. -/
example : ∃ _ : Platform, (mapped.core.forest.entry (bankAt 0) 2 131072).any fun e => getMaskedValue e S2tte.ns ≠ 0 :=
  ⟨platform, by decide +kernel⟩

/-! ### VMIDs -/

end Islet.Rmm
