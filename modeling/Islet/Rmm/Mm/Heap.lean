import Islet.Lib.RadixForest
import Islet.Rmm.Mm.Frame
import Islet.Rmm.Realm.View

/-! The monitor's page table in memory. Tables come from an allocator, and an entry of a
table above the pages holds the address of the next table. Read as a tree, the tables are a
finite map from pages to descriptors: the map that `Mm.PageTable` is by construction. -/

namespace Islet.Rmm.Mm

open Lib Bits Vmsa

namespace PtDesc

def addrBlkL1 : Word := defineMask 47 30
def addrBlkL2 : Word := defineMask 47 21
def addrTblOrPage : Word := defineMask 47 12

def pointsToTableOrPage (e : Word) : Bool := PageTable.isValid e && getMaskedValue e type == pageTypeTableOrPage

/-- `Entry::address`. -/
def address (e : Word) (level : Nat) : Option Nat :=
  if PageTable.isValid e then
    if getMaskedValue e type == pageTypeTableOrPage then some (getMasked e addrTblOrPage).toNat
    else match level with
      | 1 => some (getMasked e addrBlkL1).toNat
      | 2 => some (getMasked e addrBlkL2).toNat
      | _ => none
  else none

/-- The flags of `point_to_subtable`. -/
def tableFlags : Word :=
  setMaskedValue (setMaskedValue (setMaskedValue 0 indx mairRmmMem) type pageTypeTableOrPage) sh shareableInner |||
    (af ||| valid)

/-- `point_to_subtable`. -/
def tableDesc (table : Nat) : Word := BitVec.ofNat 64 table ||| tableFlags

end PtDesc

/-- There is one root table, and one table below each entry of a table above the last level. -/
abbrev maxTables : Nat := 1 + 512 + 512 * 512

/-- Where tables come from: the addresses that the allocator returns, one after the other. It has to come up for as many
tables as there can be. -/
structure Allocator where
  table : Nat → Nat
  fresh : ∀ {i j}, i < maxTables → j < maxTables → table i = table j → i = j
  aligned : ∀ {i}, i < maxTables → table i % 4096 = 0
  small : ∀ {i}, i < maxTables → table i < 2 ^ 48

/-- Tables by their addresses, and how many of them have been allocated. -/
structure Heap where
  entries : Nat → Nat → Word
  allocated : Nat

namespace Heap

/-- `Entry::set` and `Entry::clear`. -/
def set (h : Heap) (table index : Nat) (e : Word) : Heap :=
  { h with entries := Function.update h.entries table (Function.update (h.entries table) index e) }

/-- `subtable`. -/
def subtable? (h : Heap) (level table addr : Nat) : Option Nat :=
  let e := h.entries table (RawGpa.index level addr)
  if PtDesc.pointsToTableOrPage e then PtDesc.address e level else none

/-- `entry` for the level of pages, on a table `depth` levels above them: the place of the entry that is
handed to the callback. -/
def entry (h : Heap) (addr : Nat) : Nat → Nat → Option (Nat × Nat)
  | 0, table =>
    let index := RawGpa.index 3 addr
    if PageTable.isValid (h.entries table index) then some (table, index) else none
  | depth + 1, table =>
    let level := 2 - depth
    let index := RawGpa.index level addr
    if !PageTable.isValid (h.entries table index) then none
    else if PtDesc.pointsToTableOrPage (h.entries table index) then
      match h.subtable? level table addr with
      | some next => entry h addr depth next
      | none => none
    else some (table, index)

/-- The entry that the walk from the root table finds. -/
def walk (h : Heap) (root addr : Nat) : Option Word := (h.entry addr 2 root).map fun (table, index) => h.entries table index

/-- `unset_page` on the root table. -/
def unsetPage (h : Heap) (root addr : Nat) : Heap :=
  if PageTable.isValid (h.entries root (RawGpa.index 1 addr)) then
    match h.entry addr 2 root with
    | some (table, index) => h.set table index 0
    | none => h
  else h

variable (alloc : Allocator)

/-- `PageTable::new_in`. -/
def newIn (h : Heap) : Heap where
  entries := Function.update h.entries (alloc.table h.allocated) fun _ => 0
  allocated := h.allocated + 1

/-- `set_page` on a table `depth` levels above the pages. -/
def setPage (addr phys : Nat) (flags : Word) : Nat → Nat → Heap → Heap
  | 0, table, h => h.set table (RawGpa.index 3 addr) (PageTable.pageDesc phys flags)
  | depth + 1, table, h =>
    let level := 2 - depth
    match h.subtable? level table addr with
    | some next => setPage addr phys flags depth next h
    | none =>
      let next := alloc.table h.allocated
      setPage addr phys flags depth next
        ((h.newIn alloc).set table (RawGpa.index level addr) (PtDesc.tableDesc next))

/-- How calls on the table end. -/
inductive Mapped where
  | done (h : Heap)
  | panic
  | diverge

/-- `set_pages` over a guest and a physical range. -/
def setPages (flags : Word) : Nat → PageIter → PageIter → Heap → Mapped
  | 0, _, _, _ => .diverge
  | fuel + 1, guest, phys, h =>
    match guest.next with
    | none => .done h
    | some (va, guest) =>
      match phys.next with
      | none => .panic
      | some (pa, phys) => setPages flags fuel guest phys (setPage alloc va pa flags 2 (alloc.table 0) h)

/-- The calls of `Inner` on its table. -/
inductive Call where
  | setPages (va phys size : Nat) (flags : Word)
  | unsetPage (addr : Nat)

def exec (h : Heap) : Call → Mapped
  | .setPages va phys size flags =>
    match PageIter.rangeWithSize va size, PageIter.rangeWithSize phys size with
    | some guest, some phys => setPages alloc flags PageIter.limit guest phys h
    | _, _ => .panic
  | .unsetPage addr => .done (h.unsetPage (alloc.table 0) (alignDown addr 4096))

def run : List Call → Heap → Mapped
  | [], h => .done h
  | call :: rest, h =>
    match h.exec alloc call with
    | .done h => run rest h
    | stopped => stopped

/-- `Inner::new`, in a memory that holds anything. -/
def new (mem : Nat → Nat → Word) : Heap := newIn alloc ⟨mem, 0⟩

end Heap

/-- The calls on the nested table, which the handlers make with `map` and `unmap`. -/
def PageTable.exec (pt : PageTable) : Heap.Call → Mapped
  | .setPages va phys size flags => pt.setPagesWithSize va phys size flags
  | .unsetPage addr => .done (pt.unsetPage (alignDown addr 4096))

def PageTable.run (pt : PageTable) : List Heap.Call → Mapped
  | [] => .done pt
  | call :: rest =>
    match pt.exec call with
    | .done pt => pt.run rest
    | stopped => stopped

/-! ### The tree of tables -/

namespace PtDesc

theorem tableDesc_table {table : Nat} (aligned : table % 4096 = 0) (small : table < 2 ^ 48) :
    pointsToTableOrPage (tableDesc table) = true ∧ (getMasked (tableDesc table) addrTblOrPage).toNat = table := by
  obtain ⟨k, rfl⟩ : ∃ k, table = 4096 * k := ⟨table / 4096, by omega⟩
  constructor
  · have bit : ∀ bit < 12, getMaskedValue (tableDesc (4096 * k)) (defineMask bit bit) =
        getMaskedValue tableFlags (defineMask bit bit) := by
      intro bit low
      rw [tableDesc, getMaskedValue_or, PageTable.getMaskedValue_page k bit low, BitVec.zero_or]
    rw [pointsToTableOrPage, PageTable.isValid, valid, type, bit 0 (by omega), bit 1 (by omega)]
    decide
  · rw [tableDesc, getMasked_or, show getMasked tableFlags addrTblOrPage = 0#64 by decide, BitVec.or_zero, addrTblOrPage,
      S2tte.toNat_getMasked_address (by omega), BitVec.toNat_ofNat]
    omega

end PtDesc

namespace Heap

/-- The tables below a root table. -/
def tree (h : Heap) (root : Nat) : Forest 512 Unit Nat Word where
  top _ := 1
  root _ p := if p = 0 then some root else none
  read := h.entries
  next l e := if l < 3 ∧ PtDesc.pointsToTableOrPage e = true then some (getMasked e PtDesc.addrTblOrPage).toNat else none

variable {alloc : Allocator} {h : Heap} {root addr g l q table : Nat} {e : Word}

theorem index_slot (low : 1 ≤ l) (high : l ≤ 3) : RawGpa.index l addr = PageTable.slot addr / 512 ^ (3 - l) % 512 := by
  rw [RawGpa.index_eq addr high, PageTable.slot]
  obtain rfl | rfl | rfl : l = 1 ∨ l = 2 ∨ l = 3 := by omega
  all_goals omega

theorem next_bottom : (h.tree root).next 3 e = none := by simp [tree]

theorem next_zero : (h.tree root).next l 0 = none := if_neg fun both => nomatch both.2

theorem subtable?_eq (root : Nat) (upper : l < 3) :
    h.subtable? l table addr = (h.tree root).next l (h.entries table (RawGpa.index l addr)) := by
  unfold subtable?
  dsimp only
  generalize h.entries table (RawGpa.index l addr) = e
  change _ = if l < 3 ∧ PtDesc.pointsToTableOrPage e = true then _ else none
  by_cases points : PtDesc.pointsToTableOrPage e = true
  · obtain ⟨valid, type⟩ := Bool.and_eq_true_iff.mp points
    rw [if_pos points, if_pos ⟨upper, points⟩]
    unfold PtDesc.address
    rw [if_pos valid, if_pos type]
  · rw [if_neg points, if_neg fun both => points both.2]

theorem tree_root (root : Nat) (small : g < 2 ^ 27) : (h.tree root).node () 1 (g / 512 ^ 2 / 512) = some root := by
  have zero : g / 512 ^ 2 / 512 = 0 := by omega
  rw [zero]
  exact Forest.node_top (F := h.tree root) (t := ())

/-- The places of tables. -/
theorem node_place {p b : Nat} (found : (h.tree root).node () l p = some b) : 1 ≤ l ∧ l ≤ 3 ∧ p < 512 ^ (l - 1) := by
  have low : 1 ≤ l := Forest.top_le_of_node found
  induction l generalizing p b with
  | zero => exact absurd low (by omega)
  | succ l ih =>
    rcases Nat.eq_or_lt_of_le low with first | deeper
    · have same : l = 0 := by omega
      subst same
      change (if p = 0 then some root else none) = some b at found
      split_ifs at found with zero
      exact ⟨by omega, by omega, by omega⟩
    · rw [Forest.node_succ (show (h.tree root).top () ≤ l by change 1 ≤ l; omega)] at found
      obtain ⟨e, stored, next⟩ := Option.bind_eq_some_iff.mp found
      obtain ⟨b', parent, _⟩ := Forest.node_of_entry stored
      obtain ⟨_, _, inside⟩ := ih parent (by omega)
      have upper : l < 3 := by
        by_contra bottom
        rw [show (h.tree root).next l e = none from if_neg fun both => bottom both.1] at next
        exact nomatch next
      refine ⟨low, by omega, ?_⟩
      rw [Nat.div_lt_iff_lt_mul (by omega), ← Nat.pow_succ] at inside
      rwa [show l + 1 - 1 = l - 1 + 1 by omega]

/-- A number for each place of a table. -/
def placeNumber : Nat → Nat → Nat
  | 1, p => p
  | 2, p => 1 + p
  | _, p => 1 + 512 + p

theorem placeNumber_lt {p : Nat} (low : 1 ≤ l) (high : l ≤ 3) (inside : p < 512 ^ (l - 1)) :
    placeNumber l p < maxTables := by
  obtain rfl | rfl | rfl : l = 1 ∨ l = 2 ∨ l = 3 := by omega
  all_goals
    simp only [placeNumber, maxTables] at inside ⊢
    omega

theorem placeNumber_inj {p l' p' : Nat} (low : 1 ≤ l) (high : l ≤ 3) (inside : p < 512 ^ (l - 1)) (low' : 1 ≤ l')
    (high' : l' ≤ 3) (inside' : p' < 512 ^ (l' - 1)) (same : placeNumber l p = placeNumber l' p') : l = l' ∧ p = p' := by
  obtain rfl | rfl | rfl : l = 1 ∨ l = 2 ∨ l = 3 := by omega
  all_goals
    obtain rfl | rfl | rfl : l' = 1 ∨ l' = 2 ∨ l' = 3 := by omega
    all_goals
      simp only [placeNumber] at inside inside' same
      omega

/-- The descriptor of a mapped page. -/
def Finds (h : Heap) (root g : Nat) (e : Word) : Prop := (h.tree root).Leaf 3 () g 3 e ∧ PageTable.isValid e = true

theorem finds_of_node (place : (h.tree root).node () 3 (g / 512) = some table) :
    h.Finds root g e ↔ h.entries table (g % 512) = e ∧ PageTable.isValid e = true := by
  refine and_congr_left fun _ => ⟨fun leaf => ?_, fun same => ⟨Nat.le_refl 3, ?_, next_bottom⟩⟩
  · obtain ⟨b, there, read⟩ := Forest.node_of_entry leaf.stored
    cases there.symm.trans ((congrArg _ (by rw [Nat.sub_self, Nat.pow_zero, Nat.div_one])).trans place)
    rw [← read, Nat.sub_self, Nat.pow_zero, Nat.div_one]
    rfl
  · rw [Nat.sub_self, Nat.pow_zero, Nat.div_one, Forest.entry, place]
    exact congrArg some same

theorem Finds.unique {e' : Word} (found : h.Finds root g e) (other : h.Finds root g e') : e = e' :=
  (found.1.unique other.1).2

/-- The tables of a heap that calls have made. -/
structure Wf (alloc : Allocator) (h : Heap) : Prop where
  bounded : h.allocated ≤ maxTables
  exclusive : (h.tree (alloc.table 0)).Exclusive
  taken : ∀ {l p b}, (h.tree (alloc.table 0)).node () l p = some b → ∃ i < h.allocated, b = alloc.table i
  used : ∀ i < h.allocated, ∃ l p, (h.tree (alloc.table 0)).node () l p = some (alloc.table i)
  upper : ∀ {l q e}, (h.tree (alloc.table 0)).entry () l q = some e → l < 3 → PageTable.isValid e = true →
    PtDesc.pointsToTableOrPage e = true

/-- What `entry` finds, from a table on the way to the page. -/
theorem Wf.entry_spec (wf : h.Wf alloc) (addr depth table : Nat) (shallow : depth ≤ 2)
    (place : (h.tree (alloc.table 0)).node () (3 - depth) (PageTable.slot addr / 512 ^ depth / 512) = some table) :
    match h.entry addr depth table with
    | some (b, i) => (h.tree (alloc.table 0)).node () 3 (PageTable.slot addr / 512) = some b ∧
        i = PageTable.slot addr % 512 ∧ PageTable.isValid (h.entries b i) = true
    | none => ∀ e, ¬h.Finds (alloc.table 0) (PageTable.slot addr) e := by
  induction depth generalizing table with
  | zero =>
    rw [Nat.pow_zero, Nat.div_one] at place
    have index : RawGpa.index 3 addr = PageTable.slot addr % 512 := by
      rw [index_slot (by omega) (by omega), Nat.sub_self, Nat.pow_zero, Nat.div_one]
    unfold entry
    dsimp only
    rw [index]
    by_cases valid : PageTable.isValid (h.entries table (PageTable.slot addr % 512)) = true
    · rw [if_pos valid]
      exact ⟨place, rfl, valid⟩
    · rw [if_neg valid]
      intro e found
      obtain ⟨rfl, here⟩ := (finds_of_node place).mp found
      exact valid here
  | succ depth ih =>
    have this : 3 - (depth + 1) = 2 - depth := by omega
    have sub : 3 - (2 - depth) = depth + 1 := by omega
    have next : 3 - (2 - depth + 1) = depth := by omega
    have below : 2 - depth + 1 = 3 - depth := by omega
    rw [this] at place
    have index : RawGpa.index (2 - depth) addr = PageTable.slot addr / 512 ^ (depth + 1) % 512 := by
      rw [index_slot (by omega) (by omega), sub]
    rw [← sub] at place
    have child := Forest.node_step (show 2 - depth < 3 by omega) place
    rw [sub] at place
    rw [sub, next, below, ← index] at child
    have stored : (h.tree (alloc.table 0)).entry () (2 - depth) (PageTable.slot addr / 512 ^ (depth + 1)) =
        some (h.entries table (RawGpa.index (2 - depth) addr)) := by
      rw [Forest.entry, place, index]
      rfl
    -- nothing is found below an entry that points to no table
    have nothing : (h.tree (alloc.table 0)).next (2 - depth) (h.entries table (RawGpa.index (2 - depth) addr)) = none →
        ∀ e, ¬h.Finds (alloc.table 0) (PageTable.slot addr) e := by
      intro last e found
      have leaf : (h.tree (alloc.table 0)).Leaf 3 () (PageTable.slot addr) (2 - depth) _ :=
        ⟨by omega, by rw [sub]; exact stored, last⟩
      have := (leaf.unique found.1).1
      omega
    unfold entry
    dsimp only
    by_cases valid : PageTable.isValid (h.entries table (RawGpa.index (2 - depth) addr)) = true
    · have points := wf.upper stored (by omega) valid
      rw [valid, if_neg (by decide), if_pos points, subtable?_eq (alloc.table 0) (by omega)]
      cases target : (h.tree (alloc.table 0)).next (2 - depth) (h.entries table (RawGpa.index (2 - depth) addr)) with
      | none => exact nothing target
      | some b => exact ih b (by omega) (child.trans target)
    · rw [Bool.not_eq_true] at valid
      rw [valid, if_pos (show (!false) = true from rfl)]
      refine nothing (if_neg fun both => ?_)
      rw [PtDesc.pointsToTableOrPage, valid] at both
      cases both.2

/-- A walk finds the descriptor of the page. -/
theorem Wf.walk_iff (wf : h.Wf alloc) : h.walk (alloc.table 0) addr = some e ↔
    h.Finds (alloc.table 0) (PageTable.slot addr) e := by
  have spec := wf.entry_spec addr 2 (alloc.table 0) (by omega) (tree_root _ (Nat.mod_lt _ (by omega)))
  unfold walk
  cases found : h.entry addr 2 (alloc.table 0) with
  | none =>
    rw [found] at spec
    exact ⟨nofun, fun finds => absurd finds (spec e)⟩
  | some place =>
    rw [found] at spec
    obtain ⟨place, index, valid⟩ := spec
    rw [finds_of_node place, ← index]
    constructor
    · intro same
      cases same
      exact ⟨rfl, valid⟩
    · rintro ⟨rfl, _⟩
      rfl

/-! ### Changes of the tables -/

theorem tree_set (table index : Nat) (e : Word) : (h.set table index e).tree root = (h.tree root).write table index e := by
  unfold tree Forest.write
  congr 1
  funext b i
  by_cases same : b = table
  · subst same
    by_cases here : i = index
    · subst here
      simp [set]
    · simp [set, here]
  · simp [set, same]

/-- An entry for a page is written. -/
theorem Wf.store (wf : h.Wf alloc) (place : (h.tree (alloc.table 0)).node () 3 (g / 512) = some table) (e : Word) :
    (h.set table (g % 512) e).Wf alloc ∧ ∀ g' e', (h.set table (g % 512) e).Finds (alloc.table 0) g' e' ↔
      if g' = g then e' = e ∧ PageTable.isValid e = true else h.Finds (alloc.table 0) g' e' := by
  have whole : g / 512 * 512 + g % 512 = g := by omega
  have index : g % 512 < 512 := Nat.mod_lt _ (by omega)
  refine ⟨⟨wf.bounded, ?_, ?_, ?_, ?_⟩, fun g' e' => ?_⟩
  · rw [tree_set]
    exact wf.exclusive.write_plain place index next_bottom
  · intro l p b there
    rw [tree_set] at there
    exact wf.taken (Forest.node_of_write_plain wf.exclusive place index next_bottom there)
  · intro i less
    obtain ⟨l, p, there⟩ := wf.used i less
    refine ⟨l, p, ?_⟩
    rw [tree_set, Forest.node_write_of_not_under wf.exclusive place, there]
    rintro ⟨_, below, _⟩
    exact absurd (node_place there).2.1 (by omega)
  · intro l q e' there upper
    rw [tree_set] at there
    rcases Forest.entry_of_write_plain wf.exclusive place index next_bottom there with ⟨_, rfl, _⟩ | old
    · exact absurd upper (Nat.lt_irrefl 3)
    · exact wf.upper old upper
  · unfold Finds
    rw [tree_set]
    split_ifs with same
    · subst same
      have leaf : ((h.tree (alloc.table 0)).write table (g' % 512) e).Leaf 3 () g' 3 e :=
        Forest.leaf_write_same wf.exclusive place index next_bottom (Nat.le_refl 3) (by rw [Nat.sub_self, Nat.pow_zero, Nat.div_one, whole])
      constructor
      · rintro ⟨other, valid⟩
        cases (leaf.unique other).2
        exact ⟨rfl, valid⟩
      · rintro ⟨rfl, valid⟩
        exact ⟨leaf, valid⟩
    · rw [Forest.leaf_write_other wf.exclusive place (Nat.le_refl 3)]
      rintro ⟨_, block⟩
      rw [Nat.sub_self, Nat.pow_zero, Nat.div_one, whole] at block
      exact same block

/-- As long as a place is without a table, the allocator has one left. -/
theorem Wf.allocated_lt {p : Nat} (wf : h.Wf alloc) (low : 1 ≤ l) (high : l ≤ 3) (inside : p < 512 ^ (l - 1))
    (missing : (h.tree (alloc.table 0)).node () l p = none) : h.allocated < maxTables := by
  classical
  choose level block there using wf.used
  let place (i : Nat) : Nat := if less : i < h.allocated then placeNumber (level i less) (block i less) else 0
  have number : ∀ i (less : i < h.allocated), place i = placeNumber (level i less) (block i less) :=
    fun i less => dif_pos less
  have bound : (Finset.range h.allocated).card ≤ ((Finset.range maxTables).erase (placeNumber l p)).card := by
    refine Finset.card_le_card_of_injOn place (fun i member => ?_) fun i member j member' same => ?_
    · have less := Finset.mem_range.mp member
      obtain ⟨low', high', inside'⟩ := node_place (there i less)
      rw [number i less]
      refine Finset.mem_erase.mpr ⟨fun same => ?_, Finset.mem_range.mpr (placeNumber_lt low' high' inside')⟩
      obtain ⟨level, block⟩ := placeNumber_inj low' high' inside' low high inside same
      have found := there i less
      rw [level, block, missing] at found
      exact nomatch found
    · have less := Finset.mem_range.mp member
      have less' := Finset.mem_range.mp member'
      rw [number i less, number j less'] at same
      obtain ⟨low₁, high₁, inside₁⟩ := node_place (there i less)
      obtain ⟨low₂, high₂, inside₂⟩ := node_place (there j less')
      obtain ⟨level, block⟩ := placeNumber_inj low₁ high₁ inside₁ low₂ high₂ inside₂ same
      have found := there i less
      rw [level, block, there j less'] at found
      have := wf.bounded
      exact (alloc.fresh (by omega) (by omega) (Option.some.inj found)).symm
  rw [Finset.card_range, Finset.card_erase_of_mem (Finset.mem_range.mpr (placeNumber_lt low high inside)),
    Finset.card_range] at bound
  unfold maxTables at bound ⊢
  omega

/-- The next table of the allocator is not in use. -/
theorem Wf.fresh (wf : h.Wf alloc) (room : h.allocated < maxTables) {l p : Nat} :
    (h.tree (alloc.table 0)).node () l p ≠ some (alloc.table h.allocated) := by
  intro there
  obtain ⟨i, less, same⟩ := wf.taken there
  exact Nat.ne_of_lt less (alloc.fresh room (by omega) same).symm

/-- Preparing a table that is not in use changes nothing. -/
theorem tree_newIn (fresh : ∀ {l p}, (h.tree root).node () l p ≠ some (alloc.table h.allocated)) :
    (∀ l p, ((h.newIn alloc).tree root).node () l p = (h.tree root).node () l p) ∧
      ∀ l q, ((h.newIn alloc).tree root).entry () l q = (h.tree root).entry () l q := by
  have read : ∀ l p b, (h.tree root).node () l p = some b → ∀ i,
      ((h.newIn alloc).tree root).read b i = (h.tree root).read b i := by
    intro l p b there i
    have other : b ≠ alloc.table h.allocated := fun same => fresh (same ▸ there)
    exact congrFun (Function.update_of_ne other _ _) i
  have nodes := Forest.node_congr (F := h.tree root) (G := (h.newIn alloc).tree root) (t := ()) (u := ()) rfl (fun _ => rfl)
    (fun _ _ => rfl) read
  exact ⟨nodes, Forest.entry_congr nodes read⟩

/-- A table is allocated and linked where there was none. It maps nothing. -/
theorem Wf.grow (wf : h.Wf alloc) (upper : l < 3) (small : g < 2 ^ 27)
    (place : (h.tree (alloc.table 0)).node () l (g / 512 ^ (3 - l) / 512) = some table)
    (missing : (h.tree (alloc.table 0)).next l (h.entries table (g / 512 ^ (3 - l) % 512)) = none) :
    let h' := (h.newIn alloc).set table (g / 512 ^ (3 - l) % 512) (PtDesc.tableDesc (alloc.table h.allocated))
    h'.Wf alloc ∧ (h'.tree (alloc.table 0)).node () (l + 1) (g / 512 ^ (3 - (l + 1)) / 512) =
      some (alloc.table h.allocated) ∧ ∀ g' e, h'.Finds (alloc.table 0) g' e ↔ h.Finds (alloc.table 0) g' e := by
  intro h'
  have index : g / 512 ^ (3 - l) % 512 < 512 := Nat.mod_lt _ (by omega)
  have whole : g / 512 ^ (3 - l) / 512 * 512 + g / 512 ^ (3 - l) % 512 = g / 512 ^ (3 - l) := by omega
  have step := Forest.node_step upper place
  have room : h.allocated < maxTables := by
    refine wf.allocated_lt (l := l + 1) (by omega) (by omega) ?_ (step.trans missing)
    have low : 1 ≤ l := (node_place place).1
    obtain rfl | rfl : l = 1 ∨ l = 2 := by omega
    all_goals omega
  have fresh₀ : ∀ {l p}, (h.tree (alloc.table 0)).node () l p ≠ some (alloc.table h.allocated) := wf.fresh room
  obtain ⟨nodes, entries⟩ := tree_newIn fresh₀
  obtain ⟨points, address⟩ := PtDesc.tableDesc_table (alloc.aligned room) (alloc.small room)
  have tree : h'.tree (alloc.table 0) = ((h.newIn alloc).tree (alloc.table 0)).write table (g / 512 ^ (3 - l) % 512)
      (PtDesc.tableDesc (alloc.table h.allocated)) := tree_set _ _ _
  have exclusive : ((h.newIn alloc).tree (alloc.table 0)).Exclusive :=
    wf.exclusive.mono fun _ l p _ there => (nodes l p).symm.trans there
  have place₁ : ((h.newIn alloc).tree (alloc.table 0)).node () l (g / 512 ^ (3 - l) / 512) = some table :=
    (nodes _ _).trans place
  have target : ((h.newIn alloc).tree (alloc.table 0)).next l (PtDesc.tableDesc (alloc.table h.allocated)) =
      some (alloc.table h.allocated) := (if_pos ⟨upper, points⟩).trans (congrArg some address)
  have fresh : ∀ t' l' p', ((h.newIn alloc).tree (alloc.table 0)).node t' l' p' ≠ some (alloc.table h.allocated) :=
    fun _ l' p' there => fresh₀ ((nodes l' p').symm.trans there)
  have empty : ∀ j, ((h.newIn alloc).tree (alloc.table 0)).read (alloc.table h.allocated) j = 0 :=
    fun j => (congrFun (Function.update_self (alloc.table h.allocated) (fun _ => (0 : Word)) h.entries) j :)
  have flat : ∀ j < 512, ((h.newIn alloc).tree (alloc.table 0)).next (l + 1)
      (((h.newIn alloc).tree (alloc.table 0)).read (alloc.table h.allocated) j) = none := by
    intro j _
    rw [empty]
    exact next_zero
  have linked : (h'.tree (alloc.table 0)).node () (l + 1) (g / 512 ^ (3 - (l + 1)) / 512) =
      some (alloc.table h.allocated) := by
    have block : g / 512 ^ (3 - (l + 1)) / 512 = g / 512 ^ (3 - l) := by
      rw [Nat.div_div_eq_div_mul, ← Nat.pow_succ]
      congr 2
      omega
    have child := Forest.node_write_child (e := PtDesc.tableDesc (alloc.table h.allocated)) exclusive place₁ index
    rw [whole] at child
    rw [tree, block]
    exact child.trans target
  refine ⟨⟨room, ?_, ?_, ?_, ?_⟩, linked, fun g' e => ?_⟩
  · rw [tree]
    exact Forest.Exclusive.write_grow exclusive place₁ index target fresh flat
  · intro l' p' b there
    rw [tree] at there
    rcases Forest.node_write_grow exclusive place₁ index target fresh flat there with old | ⟨_, _, _, rfl⟩
    · obtain ⟨i, less, same⟩ := wf.taken ((nodes l' p').symm.trans old)
      exact ⟨i, Nat.lt_succ_of_lt less, same⟩
    · exact ⟨h.allocated, Nat.lt_succ_self _, rfl⟩
  · intro i less
    rcases Nat.eq_or_lt_of_le (Nat.le_of_lt_succ less) with rfl | before
    · exact ⟨l + 1, _, linked⟩
    · obtain ⟨l', p', there⟩ := wf.used i before
      refine ⟨l', p', ?_⟩
      rw [tree, Forest.node_write_of_not_under exclusive place₁, nodes, there]
      -- there was no table below the entry
      rintro ⟨_, under⟩
      rw [whole] at under
      have gone : (h.tree (alloc.table 0)).node () (l + 1) (g / 512 ^ (3 - l)) = none := by
        rw [← whole, Forest.node_child place index]
        exact missing
      rw [Forest.node_under_missing (Forest.top_le_of_node place) gone under] at there
      cases there
  · intro l' q e there below valid
    rw [tree] at there
    obtain ⟨b, node, rfl⟩ := Forest.node_of_entry there
    by_cases written : b = table ∧ q % 512 = g / 512 ^ (3 - l) % 512
    · obtain ⟨rfl, same⟩ := written
      rw [same, Forest.write_read_same]
      exact points
    · rw [Forest.write_read_other written] at valid ⊢
      rcases Forest.node_write_grow exclusive place₁ index target fresh flat node with old | ⟨_, _, _, rfl⟩
      · exact wf.upper ((entries l' q).symm.trans (by rw [Forest.entry, old]; rfl)) below valid
      · rw [empty] at valid
        cases valid
  · refine (show h'.Finds (alloc.table 0) g' e ↔ (h.newIn alloc).Finds (alloc.table 0) g' e from ?_).trans
      (and_congr_left fun _ => Forest.Leaf.congr entries fun _ _ => rfl)
    unfold Finds
    rw [tree]
    by_cases inside : g' / 512 ^ (3 - l) = g / 512 ^ (3 - l)
    · -- below the link there is the empty table now, and there was nothing before
      have after := Forest.leaf_write_grow exclusive place₁ index target fresh flat (show l + 1 ≤ 3 by omega)
        (inside.trans whole.symm)
      have other : table ≠ alloc.table h.allocated := fun same => fresh₀ (same ▸ place)
      have before : ((h.newIn alloc).tree (alloc.table 0)).Leaf 3 () g' l (h.entries table (g / 512 ^ (3 - l) % 512)) := by
        refine ⟨by omega, ?_, missing⟩
        rw [inside, Forest.entry, place₁]
        exact congrArg some (congrFun (Function.update_of_ne other _ _) _)
      constructor
      · rintro ⟨leaf, valid⟩
        rw [← (after.unique leaf).2, empty] at valid
        cases valid
      · rintro ⟨leaf, _⟩
        have := (before.unique leaf).1
        omega
    · rw [Forest.leaf_write_other exclusive place₁ (by omega)]
      rintro ⟨_, block⟩
      exact inside (block.trans whole)

/-- The table `h'` is `h` with a descriptor for page `g`. -/
structure Sets (alloc : Allocator) (h h' : Heap) (g : Nat) (e : Word) : Prop where
  wf : h'.Wf alloc
  finds : ∀ g' e', h'.Finds (alloc.table 0) g' e' ↔ if g' = g then e' = e else h.Finds (alloc.table 0) g' e'

/-- The descriptor of a page is valid, whatever the flags. -/
theorem isValid_pageDesc (phys : Nat) (flags : Word) : PageTable.isValid (PageTable.pageDesc phys flags) = true := by
  rw [PageTable.isValid, PageTable.pageDesc, getMaskedValue_or, getMaskedValue_or,
    show getMaskedValue mapExtraFlag PtDesc.valid = 1#64 by decide, bne_iff_ne]
  intro zero
  have bit := congrArg (BitVec.getLsbD · 0) zero
  simp at bit

theorem Wf.setPage (wf : h.Wf alloc) (addr phys : Nat) (flags : Word) (depth table : Nat) (shallow : depth ≤ 2)
    (place : (h.tree (alloc.table 0)).node () (3 - depth) (PageTable.slot addr / 512 ^ depth / 512) = some table) :
    Sets alloc h (setPage alloc addr phys flags depth table h) (PageTable.slot addr) (PageTable.pageDesc phys flags) := by
  induction depth generalizing h table with
  | zero =>
    rw [Nat.pow_zero, Nat.div_one] at place
    unfold Heap.setPage
    rw [index_slot (by omega) (by omega), Nat.sub_self, Nat.pow_zero, Nat.div_one]
    obtain ⟨wf', finds⟩ := wf.store place (PageTable.pageDesc phys flags)
    refine ⟨wf', fun g' e' => (finds g' e').trans ?_⟩
    rw [and_iff_left (isValid_pageDesc phys flags)]
  | succ depth ih =>
    have this : 3 - (depth + 1) = 2 - depth := by omega
    have sub : 3 - (2 - depth) = depth + 1 := by omega
    have next : 3 - (2 - depth + 1) = depth := by omega
    have below : 2 - depth + 1 = 3 - depth := by omega
    rw [this] at place
    have index : RawGpa.index (2 - depth) addr = PageTable.slot addr / 512 ^ (3 - (2 - depth)) % 512 :=
      index_slot (by omega) (by omega)
    unfold Heap.setPage
    dsimp only
    rw [subtable?_eq (alloc.table 0) (by omega), index]
    rw [← sub] at place
    cases target : (h.tree (alloc.table 0)).next (2 - depth)
        (h.entries table (PageTable.slot addr / 512 ^ (3 - (2 - depth)) % 512)) with
    | some b =>
      have child := (Forest.node_step (by omega) place).trans target
      rw [next, below] at child
      exact ih wf b (by omega) child
    | none =>
      obtain ⟨wf', child, finds⟩ := wf.grow (by omega) (Nat.mod_lt _ (by omega)) place target
      rw [next, below] at child
      have sets := ih wf' _ (by omega) child
      refine ⟨sets.wf, fun g' e' => (sets.finds g' e').trans ?_⟩
      rw [finds]

/-- Without a valid entry in the root table there is nothing to clear. -/
theorem unsetPage_eq : h.unsetPage root addr =
    match h.entry addr 2 root with
    | some (table, index) => h.set table index 0
    | none => h := by
  unfold unsetPage
  split_ifs with valid
  · rfl
  · rw [Bool.not_eq_true] at valid
    unfold entry
    dsimp only
    rw [valid, if_pos (show (!false) = true from rfl)]

/-- The page is unmapped, and no other one. -/
theorem Wf.unsetPage (wf : h.Wf alloc) (addr : Nat) : (h.unsetPage (alloc.table 0) addr).Wf alloc ∧
    ∀ g e, (h.unsetPage (alloc.table 0) addr).Finds (alloc.table 0) g e ↔
      g ≠ PageTable.slot addr ∧ h.Finds (alloc.table 0) g e := by
  have spec := wf.entry_spec addr 2 (alloc.table 0) (by omega) (tree_root _ (Nat.mod_lt _ (by omega)))
  rw [unsetPage_eq]
  cases found : h.entry addr 2 (alloc.table 0) with
  | none =>
    rw [found] at spec
    refine ⟨wf, fun g e => ⟨fun finds => ⟨?_, finds⟩, fun both => both.2⟩⟩
    rintro rfl
    exact spec e finds
  | some place =>
    rw [found] at spec
    obtain ⟨node, index, _⟩ := spec
    obtain ⟨wf', finds⟩ := wf.store node 0
    dsimp only
    rw [index]
    refine ⟨wf', fun g e => (finds g e).trans ?_⟩
    split_ifs with same
    · exact iff_of_false (fun both => nomatch both.2) fun both => both.1 same
    · exact ⟨fun found => ⟨same, found⟩, fun both => both.2⟩

/-! ### The nested table -/

/-- The tables hold the descriptors of a nested table. -/
structure Shows (alloc : Allocator) (h : Heap) (pt : PageTable) : Prop where
  wf : h.Wf alloc
  finds : ∀ va e, h.Finds (alloc.table 0) (PageTable.slot va) e ↔ pt.lookup va = e ∧ PageTable.isValid e = true

/-- How calls end on the tables and on the nested table. -/
inductive Alike (alloc : Allocator) : Mapped → PageTable.Mapped → Prop where
  | done {h : Heap} {pt : PageTable} (shows : Shows alloc h pt) : Alike alloc (.done h) (.done pt)
  | panic : Alike alloc .panic .panic
  | diverge : Alike alloc .diverge .diverge

section Shows

variable {pt : PageTable} (shows : Shows alloc h pt)

include shows

/-- A walk in the tables is a lookup in the nested table. -/
theorem Shows.walk (va : Nat) : h.walk (alloc.table 0) va =
    if PageTable.isValid (pt.lookup va) = true then some (pt.lookup va) else none := by
  refine Option.ext fun e => ?_
  rw [shows.wf.walk_iff, shows.finds]
  split_ifs with valid
  · exact ⟨fun both => congrArg some both.1, fun same => Option.some.inj same ▸ ⟨rfl, valid⟩⟩
  · exact iff_of_false (fun both => valid (both.1 ▸ both.2)) nofun

theorem Shows.setPage (va pa : Nat) (flags : Word) :
    Shows alloc (setPage alloc va pa flags 2 (alloc.table 0) h) (pt.setPage va pa flags) := by
  have sets := shows.wf.setPage va pa flags 2 (alloc.table 0) (by omega) (tree_root _ (Nat.mod_lt _ (by omega)))
  refine ⟨sets.wf, fun va' e => (sets.finds _ _).trans ?_⟩
  rw [PageTable.lookup_setPage]
  split_ifs
  · exact ⟨fun same => ⟨same.symm, same ▸ isValid_pageDesc pa flags⟩, fun both => both.1.symm⟩
  · exact shows.finds va' e

theorem Shows.unsetPage (va : Nat) : Shows alloc (h.unsetPage (alloc.table 0) va) (pt.unsetPage va) := by
  obtain ⟨wf', finds⟩ := shows.wf.unsetPage va
  refine ⟨wf', fun va' e => (finds _ _).trans ?_⟩
  rw [shows.finds, PageTable.lookup_unsetPage]
  split_ifs with cleared
  · refine iff_of_false (fun both => both.1 cleared.1) fun both => ?_
    obtain ⟨rfl, valid⟩ := both
    exact nomatch valid
  · refine and_iff_right_of_imp fun both same => cleared ⟨same, ?_⟩
    rw [PageTable.lookup_congr same.symm, both.1]
    exact both.2

theorem Shows.setPages (flags : Word) (fuel : Nat) (guest phys : PageIter) :
    Alike alloc (setPages alloc flags fuel guest phys h) (PageTable.setPages flags fuel guest phys pt) := by
  induction fuel generalizing guest phys h pt with
  | zero => exact .diverge
  | succ fuel ih =>
    rw [Heap.setPages, PageTable.setPages]
    cases guest.next with
    | none => exact .done shows
    | some va =>
      cases phys.next with
      | none => exact .panic
      | some pa => exact ih (shows.setPage va.1 pa.1 flags) va.2 pa.2

theorem Shows.exec (call : Call) : Alike alloc (h.exec alloc call) (pt.exec call) := by
  cases call with
  | unsetPage addr => exact .done (shows.unsetPage _)
  | setPages va phys size flags =>
    simp only [Heap.exec, PageTable.exec, PageTable.setPagesWithSize]
    cases PageIter.rangeWithSize va size with
    | none => exact .panic
    | some guest =>
      cases PageIter.rangeWithSize phys size with
      | none => exact .panic
      | some phys => exact shows.setPages flags PageIter.limit guest phys

theorem Shows.run (calls : List Call) : Alike alloc (Heap.run alloc calls h) (pt.run calls) := by
  induction calls generalizing h pt with
  | nil => exact .done shows
  | cons call rest ih =>
    have first := shows.exec call
    rw [Heap.run, PageTable.run]
    generalize h.exec alloc call = left, pt.exec call = right at first
    cases first with
    | done shows => exact ih shows
    | panic => exact .panic
    | diverge => exact .diverge

end Shows

/-! ### Ranges and calls -/

theorem Wf.setPages (wf : h.Wf alloc) (flags : Word) (first last frame frames count fuel : Nat)
    (ordered : last + 1 = first + count) (enough : count < fuel) (small : last < 2 ^ 27)
    (range : frame + count ≤ frames + 1) (high : 4096 * frames + 4096 < 2 ^ 64) :
    ∃ h', setPages alloc flags fuel ⟨4096 * first, 4096 * last⟩ ⟨4096 * frame, 4096 * frames⟩ h = .done h' ∧
      h'.Wf alloc ∧ ∀ g e, h'.Finds (alloc.table 0) g e ↔
        if first ≤ g ∧ g ≤ last then e = PageTable.pageDesc (4096 * (frame + (g - first))) flags
        else h.Finds (alloc.table 0) g e := by
  induction count generalizing first frame fuel h with
  | zero =>
    obtain ⟨fuel, rfl⟩ : ∃ m, fuel = m + 1 := ⟨fuel - 1, by omega⟩
    refine ⟨h, ?_, wf, fun g e => ?_⟩
    · rw [Heap.setPages, PageIter.next_of_lt (by omega)]
    · rw [if_neg (by omega)]
  | succ count ih =>
    obtain ⟨fuel, rfl⟩ : ∃ m, fuel = m + 1 := ⟨fuel - 1, by omega⟩
    have slot : PageTable.slot (4096 * first) = first := by
      rw [PageTable.slot_page, Nat.mod_eq_of_lt (by omega)]
    have sets := wf.setPage (4096 * first) (4096 * frame) flags 2 (alloc.table 0) (by omega)
      (tree_root _ (by rw [slot]; omega))
    obtain ⟨h', run, wf', finds⟩ := ih sets.wf (first + 1) (frame + 1) fuel (by omega) (by omega) (by omega)
    refine ⟨h', ?_, wf', fun g e => (finds g e).trans ?_⟩
    · rw [Heap.setPages, PageIter.next_of_le (by omega) (by omega), PageIter.next_of_le (by omega) (by omega)]
      dsimp only
      rw [show 4096 * first + 4096 = 4096 * (first + 1) by omega, show 4096 * frame + 4096 = 4096 * (frame + 1) by omega]
      exact run
    · rw [sets.finds, slot]
      by_cases later : first + 1 ≤ g ∧ g ≤ last
      · rw [if_pos later, if_pos (by omega), show frame + 1 + (g - (first + 1)) = frame + (g - first) by omega]
      · rw [if_neg later]
        by_cases here : g = first
        · subst here
          rw [if_pos rfl, if_pos (by omega), Nat.sub_self]
          rfl
        · rw [if_neg here, if_neg (by omega)]

/-- The call is for pages below 2^39, each mapped to one page. -/
def Call.Fits : Call → Prop
  | .setPages va phys size _ => 0 < size ∧ va + size ≤ 2 ^ 39 ∧ phys + size + 4096 ≤ 2 ^ 64 ∧ va % 4096 = phys % 4096
  | .unsetPage addr => addr < 2 ^ 39

/-- The call is one on the page. -/
def Call.covers (g : Nat) : Call → Bool
  | .setPages va _ size _ => decide (va / 4096 ≤ g ∧ g ≤ (va + size - 1) / 4096)
  | .unsetPage addr => g == addr / 4096

/-- What the call makes of a page that it is on. -/
def Call.stores? (g : Nat) : Call → Option Word
  | .setPages va phys _ flags => some (PageTable.pageDesc (4096 * (phys / 4096 + (g - va / 4096))) flags)
  | .unsetPage _ => none

theorem Wf.exec {call : Call} (wf : h.Wf alloc) (fits : call.Fits) : ∃ h', h.exec alloc call = .done h' ∧ h'.Wf alloc ∧
    ∀ g e, h'.Finds (alloc.table 0) g e ↔
      if call.covers g = true then call.stores? g = some e else h.Finds (alloc.table 0) g e := by
  cases call with
  | setPages va phys size flags =>
    obtain ⟨positive, small, high, offset⟩ := fits
    have range : ∀ {a}, a + size + 4096 ≤ 2 ^ 64 →
        PageIter.rangeWithSize a size = some ⟨4096 * (a / 4096), 4096 * ((a + size - 1) / 4096)⟩ := by
      intro a bound
      unfold PageIter.rangeWithSize alignDown
      dsimp only
      rw [Nat.mod_eq_of_lt (by omega), if_pos (by omega), Nat.mul_comm (a / 4096), Nat.mul_comm ((a + size - 1) / 4096)]
    obtain ⟨h', run, wf', finds⟩ := wf.setPages flags (va / 4096) ((va + size - 1) / 4096) (phys / 4096)
      ((phys + size - 1) / 4096) ((va + size - 1) / 4096 + 1 - va / 4096) PageIter.limit
      (by omega) (by unfold PageIter.limit; omega) (by omega) (by omega) (by omega)
    refine ⟨h', ?_, wf', fun g e => (finds g e).trans ?_⟩
    · rw [Heap.exec, range (by omega), range high]
      exact run
    · simp only [Call.covers, Call.stores?, decide_eq_true_eq, Option.some.injEq]
      split_ifs
      · exact eq_comm
      · exact Iff.rfl
  | unsetPage addr =>
    have slot : PageTable.slot (alignDown addr 4096) = addr / 4096 := by
      change addr < 2 ^ 39 at fits
      unfold PageTable.slot alignDown
      omega
    obtain ⟨wf', finds⟩ := wf.unsetPage (alignDown addr 4096)
    refine ⟨_, rfl, wf', fun g e => (finds g e).trans ?_⟩
    rw [slot]
    simp only [Call.covers, Call.stores?, beq_iff_eq]
    split_ifs with same
    · exact iff_of_false (fun both => both.1 same) nofun
    · exact and_iff_right same

theorem wf_new (alloc : Allocator) (mem : Nat → Nat → Word) :
    (new alloc mem).Wf alloc ∧ ∀ g e, ¬(new alloc mem).Finds (alloc.table 0) g e := by
  have empty : ∀ j, ((new alloc mem).tree (alloc.table 0)).read (alloc.table 0) j = 0 :=
    fun j => (congrFun (Function.update_self (alloc.table 0) (fun _ => (0 : Word)) mem) j :)
  have only : ∀ {l p b}, ((new alloc mem).tree (alloc.table 0)).node () l p = some b → l = 1 ∧ p = 0 ∧ b = alloc.table 0 := by
    intro l p b there
    have root : ∀ {p b}, ((new alloc mem).tree (alloc.table 0)).root () p = some b → p = 0 ∧ b = alloc.table 0 := by
      intro p b found
      change (if p = 0 then some (alloc.table 0) else none) = some b at found
      split_ifs at found with zero
      exact ⟨zero, (Option.some.inj found).symm⟩
    obtain ⟨level, found⟩ := Forest.node_of_flat (n := 512) (by omega) (fun p b found j _ => by
      rw [(root found).2, empty]
      exact next_zero) there
    exact ⟨level, root found⟩
  refine ⟨⟨show 1 ≤ maxTables by unfold maxTables; omega, ?_, ?_, ?_, ?_⟩, fun g e found => ?_⟩
  · intro _ l p _ l' p' b left right
    obtain ⟨rfl, rfl, _⟩ := only left
    obtain ⟨rfl, rfl, _⟩ := only right
    exact ⟨rfl, rfl, rfl⟩
  · intro l p b there
    exact ⟨0, Nat.one_pos, (only there).2.2⟩
  · intro i less
    cases Nat.lt_one_iff.mp less
    exact ⟨1, 0, Forest.node_top (F := (new alloc mem).tree (alloc.table 0)) (t := ())⟩
  · intro l q e there _ valid
    obtain ⟨b, node, rfl⟩ := Forest.node_of_entry there
    rw [(only node).2.2, empty] at valid
    exact nomatch valid
  · obtain ⟨b, node, _⟩ := Forest.node_of_entry found.1.stored
    exact absurd (only node).1 (by decide)

/-- Both start empty. -/
theorem shows_new (alloc : Allocator) (mem : Nat → Nat → Word) : Shows alloc (new alloc mem) PageTable.new := by
  obtain ⟨wf, empty⟩ := wf_new alloc mem
  refine ⟨wf, fun va e => iff_of_false (empty _ e) fun both => ?_⟩
  obtain ⟨rfl, valid⟩ := both
  change PageTable.isValid 0 = true at valid
  exact absurd valid (by decide)

/-- The last call on a page. -/
def lastOn (g : Nat) (calls : List Call) : Option Call := calls.reverse.find? (·.covers g)

theorem Wf.run {calls : List Call} (wf : h.Wf alloc) (fits : ∀ call ∈ calls, call.Fits) :
    ∃ h', run alloc calls h = .done h' ∧ h'.Wf alloc ∧ ∀ g e, h'.Finds (alloc.table 0) g e ↔
      match lastOn g calls with
      | some call => call.stores? g = some e
      | none => h.Finds (alloc.table 0) g e := by
  induction calls generalizing h with
  | nil => exact ⟨h, rfl, wf, fun _ _ => Iff.rfl⟩
  | cons call rest ih =>
    obtain ⟨h₁, first, wf₁, finds₁⟩ := wf.exec (fits call List.mem_cons_self)
    obtain ⟨h', others, wf', finds⟩ := ih wf₁ fun call member => fits call (List.mem_cons_of_mem _ member)
    refine ⟨h', ?_, wf', fun g e => (finds g e).trans ?_⟩
    · rw [Heap.run, first]
      exact others
    · have split : lastOn g (call :: rest) = (lastOn g rest).or (if call.covers g = true then some call else none) := by
        rw [lastOn, List.reverse_cons, List.find?_append]
        by_cases covers : call.covers g = true <;> simp [covers, lastOn]
      rw [split]
      cases lastOn g rest with
      | some later => rfl
      | none =>
        rw [Option.none_or]
        dsimp only
        rw [finds₁]
        split_ifs <;> rfl

/-- The tables are a finite map. After any calls on pages below 2^39, the walk for a page finds an entry exactly if the
last call on the page was `set_pages`, and the entry is the descriptor that this call made for it. -/
theorem finite_map (alloc : Allocator) (mem : Nat → Nat → Word) (calls : List Call)
    (fits : ∀ call ∈ calls, call.Fits) :
    ∃ h, run alloc calls (new alloc mem) = .done h ∧
      ∀ g < 2 ^ 27, h.walk (alloc.table 0) (4096 * g) = (lastOn g calls).bind (·.stores? g) := by
  obtain ⟨wf, empty⟩ := wf_new alloc mem
  obtain ⟨h, done, wf', finds⟩ := wf.run fits
  refine ⟨h, done, fun g small => Option.ext fun e => ?_⟩
  rw [wf'.walk_iff, PageTable.slot_page, Nat.mod_eq_of_lt small, finds]
  cases lastOn g calls with
  | none => exact iff_of_false (empty g e) nofun
  | some call => exact Iff.rfl

/-- Tables from adjacent pages. -/
def Allocator.adjacent : Allocator where
  table n := 4096 * (n + 1)
  fresh _ _ same := by omega
  aligned _ := by omega
  small less := by
    unfold maxTables at less
    omega

/-- Two pages are mapped, and the first is unmapped. -/
theorem finite_map_two : ∃ h : Heap,
    run Allocator.adjacent [.setPages 0x1000 0x5000 0x2000 0, .unsetPage 0x1000] (new Allocator.adjacent fun _ _ => 7) =
      .done h ∧ h.walk 0x1000 0x1000 = none ∧ h.walk 0x1000 0x2000 = some (PageTable.pageDesc 0x6000 0) := by
  obtain ⟨h, done, walk⟩ := finite_map Allocator.adjacent (fun _ _ => 7)
    [.setPages 0x1000 0x5000 0x2000 0, .unsetPage 0x1000] (by
      intro call member
      rcases List.mem_pair.mp member with rfl | rfl
      · exact ⟨by omega, by omega, by omega, rfl⟩
      · exact (show 0x1000 < 2 ^ 39 by omega))
  exact ⟨h, done, walk 1 (by omega), walk 2 (by omega)⟩

/-- The tables refine the nested table that the handlers are modelled with. Any calls with any arguments end alike on
both, and when they return, a walk of the tables finds for every address what the nested table holds for it. -/
theorem refines_nested (alloc : Allocator) (mem : Nat → Nat → Word) (calls : List Call) :
    match run alloc calls (new alloc mem), PageTable.new.run calls with
    | .done h, .done pt => ∀ va, h.walk (alloc.table 0) va =
        if PageTable.isValid (pt.lookup va) = true then some (pt.lookup va) else none
    | .panic, .panic => True
    | .diverge, .diverge => True
    | _, _ => False := by
  have alike := (shows_new alloc mem).run calls
  generalize run alloc calls (new alloc mem) = left, PageTable.new.run calls = right at alike
  cases alike with
  | done shows => exact shows.walk
  | panic => exact trivial
  | diverge => exact trivial

end Heap

end Islet.Rmm.Mm
