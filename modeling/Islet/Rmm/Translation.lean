import Islet.Rmm.Folded

/-! The stage 2 translation of the architecture, and the one that the monitor does for
itself. The monitor asks an entry for its address without the level at which it was
found, and so does not know the address of a block. -/

namespace Islet.Rmm

open Lib Prog Bits Rmi Stage2Translation Vmsa

variable [Platform] {s t : Machine} {c c' : Core} {rd : Rd} {o ipa : Nat}

/-! ### What the hardware does -/

namespace Stage2

/-- Bits 47 to `shift` of a descriptor. -/
def outputAddress (e : Word) (shift : Nat) : Nat := e.toNat % 2 ^ 48 / 2 ^ shift * 2 ^ shift

/-- The address that an entry with `depth` levels below it gives, if it ends the translation. -/
def output (e : Word) (depth ipa : Nat) : Option Nat :=
  if depth = 0 then if e.toNat % 4 = 3 then some (outputAddress e 12 + ipa % 2 ^ 12) else none
  else if e.toNat % 4 = 1 ∧ depth ≤ 2 then
    some (outputAddress e (12 + 9 * depth) + ipa % 2 ^ (12 + 9 * depth))
  else none

/-- The lookup from an entry with `depth` levels of tables below it: a valid descriptor names a table or, at the
lowest level, a page, or it is a block. -/
def lookup (c : Core) (ipa : Nat) : Nat → Nat → Nat → Option Nat
  | 0, table, index => output ((c.mem table).words index) 0 ipa
  | depth + 1, table, index =>
    let e := (c.mem table).words index
    if e.toNat % 4 = 3 then lookup c ipa depth (outputAddress e 12) (ipa / 2 ^ (12 + 9 * depth) % 512)
    else output e (depth + 1) ipa

/-- The lookup starts in the root tables, which lie next to each other. -/
def translate (c : Core) (rd : Rd) (ipa : Nat) : Option Nat :=
  let depth := 3 - rd.s2StartingLevel
  let index := ipa / 2 ^ (12 + 9 * depth)
  if ipa < 2 ^ rd.ipaBits then lookup c ipa depth (rd.rttBase + 4096 * (index / 512)) (index % 512) else none

end Stage2

/-! ### What the monitor does -/

omit [Platform] in
theorem Stage2.outputAddress_eq (e : Word) {level : Nat} (bound : level ≤ 3) :
    Stage2.outputAddress e (39 - 9 * level) = S2tte.outAddr e level := by
  unfold outputAddress S2tte.outAddr
  have cases : level = 0 ∨ level = 1 ∨ level = 2 ∨ level = 3 := by omega
  rcases cases with rfl | rfl | rfl | rfl <;> omega

theorem descend_succ {addr depth : Nat} (bound : depth ≤ 2) (slot : Slot) :
    descend c addr 3 false (depth + 1) slot = if S2tte.descNum (pte c slot) = 3 then
      descend c addr 3 false depth ⟨S2tte.outAddr (pte c slot) 3, RawGpa.index (3 - depth) addr⟩
    else .found slot (2 - depth) := by
  rw [descend]
  simp only [Nat.lt_irrefl, if_false, Bool.false_and, Bool.false_eq_true, S2tte.pointsToTableOrPage_iff,
    show 2 - depth < 3 by omega, true_and]
  rw [nextSlot, S2tte.toNat_addrTblOrPage, show 2 - depth + 1 = 3 - depth by omega]

/-- Both follow the same tables. -/
theorem Stage2.lookup_eq (depth : Nat) (bound : depth ≤ 3) (slot : Slot) : Stage2.lookup c ipa depth slot.table slot.index =
    match descend c (alignDown ipa 4096) 3 false depth slot with
    | .found slot last => Stage2.output (pte c slot) (3 - last) ipa
    | _ => none := by
  induction depth generalizing slot with
  | zero => rfl
  | succ depth ih =>
    rw [descend_succ (by omega), lookup]
    by_cases table : S2tte.descNum (pte c slot) = 3
    · rw [if_pos table, ← ih (by omega), if_pos (show ((c.mem slot.table).words slot.index).toNat % 4 = 3 from table),
        index_page ipa (by omega), show 3 - (3 - depth) = depth by omega, Nat.div_div_eq_div_mul]
      have shift : 2 ^ (12 + 9 * depth) = 4096 * 512 ^ depth := by
        rw [pow_add, pow_mul]
        rfl
      rw [shift, ← Stage2.outputAddress_eq _ (Nat.le_refl 3)]
      rfl
    · rw [if_neg table, if_neg (show ¬((c.mem slot.table).words slot.index).toNat % 4 = 3 from table)]
      dsimp only
      rw [show 3 - (2 - depth) = depth + 1 by omega]
      rfl

/-- A descriptor that is not valid has no address, so that it makes no difference where the walk finds this out. -/
theorem descend_address (depth : Nat) (bound : depth ≤ 3) (slot : Slot) {addr : Nat} :
    (match descend c addr 3 true depth slot with
      | .found slot _ => S2tte.address (pte c slot) 0 | _ => none) =
    match descend c addr 3 false depth slot with
      | .found slot _ => S2tte.address (pte c slot) 0 | _ => none := by
  induction depth generalizing slot with
  | zero =>
    cases valid : S2tte.isValidEntry (pte c slot) with
    | true => simp [descend, valid]
    | false => simp [descend, valid, S2tte.address]
  | succ depth ih =>
    rw [descend_succ (by omega), descend]
    simp only [Nat.lt_irrefl, if_false, Bool.true_and, S2tte.pointsToTableOrPage_iff, show 2 - depth < 3 by omega, true_and]
    cases valid : S2tte.isValidEntry (pte c slot) with
    | true =>
      by_cases table : S2tte.descNum (pte c slot) = 3
      · simp only [Bool.not_true, Bool.false_eq_true, if_false, if_pos table]
        rw [nextSlot, S2tte.toNat_addrTblOrPage, show 2 - depth + 1 = 3 - depth by omega]
        exact ih (by omega) _
      · simp only [Bool.not_true, Bool.false_eq_true, if_false, if_neg table]
    | false =>
      have leaf : S2tte.descNum (pte c slot) ≠ 3 := by
        intro table
        have points := (S2tte.pointsToTableOrPage_iff _).mpr table
        rw [S2tte.pointsToTableOrPage, valid] at points
        cases points
      simp only [Bool.not_false, if_true, if_neg leaf, S2tte.address_zero_eq]

theorem Core.ipaToPa?_eq : c.ipaToPa? rd ipa = match rd.tables.walk c ipa 3 false with
    | .found slot _ => S2tte.address (pte c slot) 0 | _ => none := by
  unfold Core.ipaToPa? walk
  simp only [Nat.lt_irrefl, if_false]
  cases rd.tables.rootSlot? (alignDown ipa 4096) with
  | none => rfl
  | some slot => exact descend_address _ (Nat.sub_le 3 _) slot

theorem Rd.Shape.translate_eq (shape : rd.Shape) (inside : ipa < rd.ipaSize) : Stage2.translate c rd ipa =
    match rd.tables.walk c ipa 3 false with
    | .found slot last => Stage2.output (pte c slot) (3 - last) ipa | _ => none := by
  obtain ⟨index, covered⟩ := shape.rootIndex inside
  have shift : 2 ^ (12 + 9 * (3 - rd.s2StartingLevel)) = 4096 * 512 ^ (3 - rd.s2StartingLevel) := by
    rw [pow_add, pow_mul]
    rfl
  unfold Stage2.translate walk
  simp only [Nat.lt_irrefl, if_false]
  rw [if_pos (show ipa < 2 ^ rd.ipaBits from inside), shift, ← Nat.div_div_eq_div_mul, ← index, Stage2Translation.rootSlot?,
    if_pos (show _ < 512 * rd.tables.rootPages from covered)]
  exact Stage2.lookup_eq _ (Nat.sub_le 3 _) ⟨_, _⟩

/-- Both look at the leaf of the page. -/
theorem Core.translations (realm : c.realm? o = some rd) (shape : rd.Shape) (inside : ipa < rd.ipaSize) :
    ∃ l e, c.forest.Leaf 3 o (ipa / 4096) l e ∧ S2tte.isTable e l = false ∧
      c.ipaToPa? rd ipa = (if S2tte.descNum e = 3 then some (S2tte.outAddr e 3) else none) ∧
      Stage2.translate c rd ipa = Stage2.output e (3 - l) ipa := by
  have top := shape.level_le
  have reached := walk_reached realm shape ipa false (Nat.le_refl 3)
  rw [Core.ipaToPa?_eq, shape.translate_eq inside]
  cases walked : rd.tables.walk c ipa 3 false with
  | missing =>
    rw [walked] at reached
    exact nomatch reached
  | panic =>
    rw [walked] at reached
    exact absurd inside reached
  | found slot last =>
    rw [walked, shape.walkPage_eq inside] at reached
    exact ⟨last, pte c slot, reached.1.leaf_page rfl (by omega), reached.1.leaf rfl (by omega),
      S2tte.address_zero_eq _, rfl⟩

/-- The page is mapped by a block of level 1 or 2. -/
def Core.MappedByBlock (c : Core) (o ipa : Nat) : Prop :=
  ∃ l e, c.forest.Leaf 3 o (ipa / 4096) l e ∧ (l = 1 ∨ l = 2) ∧ S2tte.descNum e = 1

theorem Core.translates_iff (realm : c.realm? o = some rd) (shape : rd.Shape) (aligned : ipa % 4096 = 0)
    (inside : ipa < rd.ipaSize) : c.ipaToPa? rd ipa = Stage2.translate c rd ipa ↔ ¬c.MappedByBlock o ipa := by
  obtain ⟨last, e, leaf, plain, monitor, hardware⟩ := Core.translations realm shape inside
  have high := leaf.level
  have blocks : c.MappedByBlock o ipa ↔ (last = 1 ∨ last = 2) ∧ S2tte.descNum e = 1 := by
    constructor
    · rintro ⟨l, e, other, block⟩
      obtain ⟨rfl, rfl⟩ := other.unique leaf
      exact block
    · exact fun block => ⟨_, _, leaf, block⟩
  rw [← Bool.not_eq_true, S2tte.isTable_iff] at plain
  rw [blocks, monitor, hardware, Stage2.output]
  by_cases bottom : last = 3
  · have address : Stage2.outputAddress e 12 + ipa % 2 ^ 12 = S2tte.outAddr e 3 := by
      rw [← Stage2.outputAddress_eq _ (Nat.le_refl 3), show ipa % 2 ^ 12 = 0 from aligned, Nat.add_zero]
    rw [if_pos (show 3 - last = 0 by omega), address]
    exact iff_of_true rfl fun block => by omega
  · rw [if_neg fun page => plain ⟨by omega, page⟩, if_neg (show 3 - last ≠ 0 by omega)]
    split_ifs with block
    · exact iff_of_false nofun fun free => free ⟨by omega, block.1⟩
    · exact iff_of_true rfl fun found => block ⟨found.2, by omega⟩

/-- The function of the monitor computes this. -/
theorem Core.ipaToPa?_run (inv : s.core.Inv) (realm : s.core.realm? o = some rd) (inPar : rd.addrInPar ipa = true) :
    (ipaToPa rd ipa 3).run s = (.ok (s.core.ipaToPa? rd ipa), s) := by
  have spec : wp (ipaToPa rd ipa Rsi.pageLevel) (fun pa t => pa = s.core.ipaToPa? rd ipa ∧ t = s) (fun _ _ => False) s :=
    wp_ipaToPa realm inv inPar (fun missing => ⟨missing.symm, rfl⟩) fun pa found _ => ⟨found.symm, rfl⟩
  exact run_of_wp spec

/-! ### A realm with a block -/

/-- The first pages of the realm are data, in granules that follow each other. -/
structure Core.RamPages (c : Core) (rd : Rd) (k : Nat) : Prop extends c.HasRealm rd where
  isNew : rd.state = .new
  mapped : ∀ j < k, c.forest.Leaf 3 (bankAt 0) j 3 (Rtt.dataDesc (bankAt (512 + j)) false 0)
  free : ∀ j, k ≤ j → j < 512 → ∃ e, c.forest.Leaf 3 (bankAt 0) j 3 e ∧ S2tte.isUnassigned e = true

/-- One more page. -/
theorem Core.RamPages.add {k n : Nat} (pages : s.core.RamPages rd k) (inv : s.core.Inv) (inside : k < 512)
    (stocked : s.core.Stocked (512 + k) n) (enough : 512 + k < n) :
    ∃ (t : Machine) (rd' : Rd), s.Succeeds (.dataCreate (BitVec.ofNat 64 (bankAt 0)) (BitVec.ofNat 64 (bankAt (512 + k)))
      (BitVec.ofNat 64 (k * 4096)) (BitVec.ofNat 64 hostPage) 0#64) t ∧ t.core.RamPages rd' (k + 1) ∧
      t.core.Stocked (512 + k + 1) n := by
  have size := stocked.size
  have rdEq := toNat_bankAt (i := 0) (by omega)
  have targetEq := toNat_bankAt (i := 512 + k) (by omega)
  have srcEq : (BitVec.ofNat 64 hostPage).toNat = hostPage := by decide
  have ipaEq : (BitVec.ofNat 64 (k * 4096)).toNat = k * 4096 := (Rtt.isPage_step inside).1
  have page : k * 4096 / 4096 = k := by omega
  obtain ⟨e, leaf, free⟩ := pages.free k (Nat.le_refl k) inside
  have copies : CopiesData s.core (bankAt 0) (bankAt (512 + k)) (k * 4096) hostPage rd :=
    ⟨pages.realm, pages.isNew, pages.validateIpa (by omega) ⟨by omega, (Rtt.isPage_step inside).2.and_addr⟩, stocked.host,
      stocked.free _ (Nat.le_refl _) enough⟩
  have stored := leaf.stored
  rw [Nat.sub_self, Nat.pow_zero, Nat.div_one] at stored
  obtain ⟨t, done, data⟩ := Machine.createsData (s := s) (BitVec.ofNat 64 (bankAt 0)) (BitVec.ofNat 64 (bankAt (512 + k)))
    (BitVec.ofNat 64 (k * 4096)) (BitVec.ofNat 64 hostPage) 0#64 inv (by rw [rdEq, targetEq, srcEq, ipaEq]; exact copies)
    (by rw [rdEq, ipaEq, FindsPlace, page]; exact ⟨e, stored, free⟩)
  rw [rdEq, targetEq, ipaEq] at data
  obtain ⟨rd₁, op, found, realm⟩ := data.realm
  cases pages.realm.symm.trans found
  have others : ∀ {j e}, j ≠ k → (t.core.forest.Leaf 3 (bankAt 0) j 3 e ↔ s.core.forest.Leaf 3 (bankAt 0) j 3 e) := by
    intro j e other
    refine data.leaves _ _ _ _ fun inside => other ?_
    rw [page] at inside
    omega
  refine ⟨t, rd.measured op, done, ⟨⟨realm, pages.level, pages.bits⟩, pages.isNew, fun j less => ?_, fun j low high => ?_⟩, size, fun i low high => ?_,
    validateAddr_hostPage, ?_⟩
  · by_cases last : j = k
    · subst last
      have entry := data.entry
      rw [page] at entry
      exact leaf_of_bottom entry
    · exact (others last).mpr (pages.mapped j (by omega))
  · obtain ⟨e, leaf, free⟩ := pages.free j (by omega) high
    exact ⟨e, (others (by omega)).mpr leaf, free⟩
  · obtain ⟨valid, state⟩ := stocked.free i (by omega) high
    refine ⟨valid, ?_⟩
    rw [data.states _ valid, if_neg (by rw [bankAt_inj]; omega), state]
  · rw [data.states _ validateAddr_hostPage, if_neg (bankAt_ne_hostPage (by omega)), stocked.host.2]

theorem Core.RamPages.exists_pages (pages : s.core.RamPages rd 0) (reached : s.Reachable)
    (stocked : s.core.Stocked 512 1024) : ∀ k ≤ 512, ∃ (t : Machine) (rd' : Rd), t.Reachable ∧ t.core.RamPages rd' k ∧
      t.core.Stocked (512 + k) 1024
  | 0, _ => ⟨s, rd, reached, pages, stocked⟩
  | k + 1, bound => by
    obtain ⟨t, rd', reached', pages', stocked'⟩ := pages.exists_pages reached stocked k (by omega)
    obtain ⟨u, rd'', done, pages'', stocked''⟩ := pages'.add reached'.inv (by omega) stocked' (by omega)
    exact ⟨u, rd'', reached'.succeeds done, pages'', stocked''⟩

/-- A realm with two tables for its first pages. -/
def Sample.tabled : Machine :=
  .prepared (Action.delegates 4 ++ Action.newRealm 1 39 ++ [Action.newTable 2 0 2, Action.newTable 3 0 3])

theorem Sample.tabled_via : Sample.tabled.ReachableVia Prepares := Machine.prepared_via _

open Sample in
omit [Platform] in
/-- The block that the pages are folded into. -/
theorem exists_ramBlock : ∃ _ : Platform, ∃ (s : Machine) (rd : Rd) (e : Word), s.Reachable ∧ s.core.HasRealm rd ∧
    (∀ j < 512, s.core.forest.Leaf 3 (bankAt 0) j 2 e) ∧ S2tte.descNum e = 1 ∧ S2tte.outAddr e 2 = bankAt 512 := by
  obtain ⟨s, rd, reached, pages, _⟩ : ∃ (s : Machine) (rd : Rd), s.Reachable ∧ s.core.RamPages rd 512 ∧
      s.core.Stocked (512 + 512) 1024 := by
    have ready : ∀ i < 512, ReadyToDelegate tabled.core (bankAt (512 + i)) := by decide +kernel
    have spare : tabled.core.Spare 512 1024 := by
      refine ⟨by omega, fun i low high => ?_, by decide +kernel⟩
      rw [show i = 512 + (i - 512) by omega]
      exact ready _ (by omega)
    obtain ⟨rd, realm, kind⟩ := (Option.any_eq_true (fun rd => rd.s2StartingLevel = 1 ∧ rd.ipaBits = 39 ∧ rd.state = .new)
      (tabled.core.realm? (bankAt 0))).mp (by decide +kernel)
    obtain ⟨level, bits, isNew⟩ := of_decide_eq_true kind
    have node : tabled.core.forest.node (bankAt 0) 3 0 = some (bankAt 3) := by decide +kernel
    have free : ∀ q < 512, S2tte.isUnassigned (tabled.core.forest.read (bankAt 3) q) = true := by decide +kernel
    obtain ⟨t, reached, _, stocked, realms, forest, _⟩ := spare.stock tabled_via.reachable 512 (by omega)
    have start : t.core.RamPages rd 0 := by
      refine ⟨⟨(realms _).trans realm, level, bits⟩, isNew, nofun, fun j _ less => ?_⟩
      have stored := Forest.entry_of_node node less
      rw [Nat.zero_mul, Nat.zero_add] at stored
      exact ⟨_, leaf_of_bottom ((forest.entry_eq _ _ _).trans stored), free j less⟩
    exact start.exists_pages reached stocked 512 (by omega)
  have inv := reached.inv
  have inPar : rd.addrInPar 0 = true := by
    rw [Rd.addrInPar, Rd.parSize, Rd.ipaSize, pages.bits]
    rfl
  have holds : TableHolds s.core (bankAt 0) 0 3 fun j => Rtt.dataDesc (bankAt (512 + j)) false 0 := by
    intro j index
    have stored := (pages.mapped j index).stored
    rw [Nat.sub_self, Nat.pow_zero, Nat.div_one] at stored
    rwa [show 0 / 4096 / 512 ^ (3 - (3 - 1)) * 512 + j = j by omega]
  have same : S2tte.isHomogeneous ((List.range 512).map fun j => Rtt.dataDesc (bankAt (512 + j)) false 0) 3 = true := by
    decide +kernel
  have made : Rtt.foldDesc (Rtt.dataDesc (bankAt (512 + 0)) false 0) 3 (rd.addrInPar 0) ≠ none := by
    rw [inPar]
    decide
  have ready : Foldable s.core (BitVec.ofNat 64 (bankAt 0)).toNat (0#64).toNat (3#64).toNat := by
    rw [toNat_bankAt (by omega)]
    exact ⟨rd, pages.realm, (pages.acceptsTable (q := 0) (by omega)).1, _, holds, same, made⟩
  obtain ⟨t, done, _⟩ := Machine.succeeds_of_wp s (.rttFold (BitVec.ofNat 64 (bankAt 0)) 0#64 3#64)
    (rttFold_spec _ _ _ inv rfl rfl rfl rfl rfl) fun _ _ stops => stops.1.1 ready
  obtain ⟨_, rd', w, new, folded, _⟩ := done.post (rttFold_spec (s := s.start) _ _ _ inv rfl rfl rfl rfl rfl)
  have folded : HasFolded s.core t.core (BitVec.ofNat 64 (bankAt 0)).toNat 0 3 rd' w new := folded
  rw [toNat_bankAt (by omega)] at folded
  cases pages.realm.symm.trans folded.realm
  have first : w 0 = Rtt.dataDesc (bankAt (512 + 0)) false 0 :=
    Option.some.inj ((folded.before 0 (by omega)).symm.trans (holds 0 (by omega)))
  have made := folded.made
  rw [first, inPar] at made
  have value : Rtt.foldDesc (Rtt.dataDesc (bankAt (512 + 0)) false 0) 3 true = some 0x802003d9#64 := by decide
  cases Option.some.inj (value.symm.trans made)
  refine ⟨platform, t, rd, 0x802003d9#64, reached.succeeds done, pages.of_realm ((folded.realms _).trans pages.realm), fun j index => ?_,
    by decide, by decide⟩
  exact folded.leaf_after inv (by omega) (by simp; omega)

/-! ### The two translations -/

/-- The monitor translates a protected page as the hardware does, exactly if it is not mapped by a block. -/
theorem Machine.Reachable.translates_alike (reached : s.Reachable) (realm : s.core.realm? o = some rd)
    (aligned : ipa % 4096 = 0) (inPar : rd.addrInPar ipa = true) :
    (ipaToPa rd ipa 3).run s = (.ok (Stage2.translate s.core rd ipa), s) ↔ ¬s.core.MappedByBlock o ipa := by
  have shape := reached.inv.realms.shape realm
  have below : ipa < rd.parSize := by simpa [Rd.addrInPar] using inPar
  rw [← Core.translates_iff realm shape aligned (below.trans_le (Nat.div_le_self _ _)),
    Core.ipaToPa?_run reached.inv realm inPar]
  exact ⟨fun same => Except.ok.inj (Prod.mk.inj same).1, fun same => by rw [same]⟩

open Sample in
omit [Platform] in
/-- A page of data. -/
theorem translates_page : ∃ _ : Platform, ∃ (s : Machine) (rd : Rd), s.Reachable ∧
    s.core.realm? (bankAt 0) = some rd ∧ (ipaToPa rd 0 3).run s = (.ok (Stage2.translate s.core rd 0), s) := by
  have reached := populated_via.reachable
  obtain ⟨rd, realm, inPar⟩ := (Option.any_eq_true (·.addrInPar 0) (populated.core.realm? (bankAt 0))).mp (by decide +kernel)
  have page : populated.core.forest.Leaf 3 (bankAt 0) 0 3 (Rtt.dataDesc (bankAt 4) true 1) :=
    ⟨by decide, by decide +kernel, by decide +kernel⟩
  refine ⟨platform, populated, rd, reached, realm, (reached.translates_alike realm rfl inPar).mpr ?_⟩
  rintro ⟨l, e, leaf, level, _⟩
  obtain ⟨rfl, _⟩ := leaf.unique page
  omega

omit [Platform] in
/-- The second page of a block of two megabytes: the hardware finds it, the monitor does not. -/
theorem block_not_translated : ∃ _ : Platform, ∃ (s : Machine) (rd : Rd), s.Reachable ∧
    s.core.realm? (bankAt 0) = some rd ∧ rd.addrInPar 0x1000 = true ∧
    Stage2.translate s.core rd 0x1000 = some (bankAt 513) ∧ (ipaToPa rd 0x1000 3).run s = (.ok none, s) := by
  obtain ⟨platform, s, rd, e, reached, has, block, desc, out⟩ := exists_ramBlock
  have shape := reached.inv.realms.shape has.realm
  have inPar : rd.addrInPar 0x1000 = true := by
    rw [Rd.addrInPar, Rd.parSize, Rd.ipaSize, has.bits]
    rfl
  have inside : 0x1000 < rd.ipaSize := by
    rw [Rd.ipaSize, has.bits]
    decide
  obtain ⟨l, e', leaf, _, monitor, hardware⟩ := Core.translations has.realm shape inside
  obtain ⟨rfl, rfl⟩ := leaf.unique (block 1 (by omega))
  refine ⟨platform, s, rd, reached, has.realm, inPar, ?_, ?_⟩
  · have address : Stage2.outputAddress e' 21 = bankAt 512 := (@Stage2.outputAddress_eq e' 2 (by omega)).trans out
    rw [hardware, Stage2.output, if_neg (by omega), if_pos ⟨desc, by omega⟩]
    exact congrArg some (congrArg (· + 0x1000) address)
  · rw [Core.ipaToPa?_run reached.inv has.realm inPar, monitor, if_neg (by omega)]

end Islet.Rmm
