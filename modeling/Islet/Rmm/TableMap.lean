import Islet.Rmm.Configurations

/-! The tables of a realm as a map from addresses and levels to descriptors: what a walk
returns after a descriptor has been stored, and what the list of the entries of a table
has to do with walks. Nothing is asked of the state but that no table serves two places. -/

namespace Islet.Rmm

open Lib Prog Bits Vmsa Rmi Stage2Translation

variable [Platform] {c : Core} {rd : Rd} {ipa ipa' level last : Nat} {slot : Slot}

/-- `ipa_to_pte`. -/
def Stage2Translation.ipaToPte (t : Stage2Translation) (c : Core) (ipa level : Nat) : Walk Word :=
  match t.walk c ipa level false with
  | .found slot last => .found (pte c slot) last
  | .missing => .missing
  | .panic => .panic

/-- The root tables of the realm are of a shape that REALM_CREATE accepts. -/
structure Rd.Accepted (rd : Rd) : Prop where
  params : ∃ (p : RealmParams) (addr : Nat), p.verifyCompliance addr = true ∧
    p.rttLevelStart.toNat = rd.s2StartingLevel ∧ p.rttNumStart = rd.rttNumStart ∧ p.ipaBits = rd.ipaBits
  supported : Stage2Translation.supported rd.s2StartingLevel rd.rttNumStart = true

/-- One entry of the level covers both addresses. -/
def SameBlock (level ipa ipa' : Nat) : Prop := ipa / 2 ^ (39 - 9 * level) = ipa' / 2 ^ (39 - 9 * level)

instance (level ipa ipa' : Nat) : Decidable (SameBlock level ipa ipa') := inferInstanceAs (Decidable (_ = _))

/-- The first address of the table of a level that `ipa` belongs to. -/
def Stage2Translation.tableStart (t : Stage2Translation) (ipa level : Nat) : Nat :=
  if level = t.rootLevel then 0 else alignDown ipa (512 * 2 ^ (39 - 9 * level))

/-! ### Walks and places -/

theorem Rd.Accepted.shape (accepted : rd.Accepted) : rd.Shape := by
  obtain ⟨p, addr, valid, level, num, bits⟩ := accepted.params
  have supported := accepted.supported
  obtain ⟨covered, halves, small⟩ := RealmParams.shape valid (by rw [level, num]; exact supported)
  rw [level, num, bits] at covered
  rw [level, bits] at halves
  exact ⟨supported, covered, halves, bits ▸ small⟩

/-- Root tables of level 0 are not concatenated. -/
theorem Rd.Accepted.single (accepted : rd.Accepted) (level : rd.s2StartingLevel = 0) : rd.rttNumStart = 1 := by
  have small := accepted.shape.bits
  obtain ⟨p, addr, valid, start, num, bits⟩ := accepted.params
  simp only [RealmParams.verifyCompliance, Bool.and_eq_true, beq_iff_eq] at valid
  obtain ⟨⟨⟨⟨⟨_, roots⟩, _⟩, _⟩, _⟩, _⟩ := valid
  have zero : p.rttLevelStart = 0#64 := BitVec.eq_of_toNat_eq (start.trans level)
  have limit : p.slIpaBits = 48#64 := by
    rw [RealmParams.slIpaBits, RealmParams.levels, zero]
    rfl
  rw [← num, ← roots, RealmParams.numRootRtts, limit]
  refine if_pos ?_
  rw [BitVec.le_def, BitVec.toNat_ofNat, bits, Nat.mod_eq_of_lt (by omega)]
  exact small

omit [Platform] in
theorem sameBlock_iff (bound : level ≤ 3) :
    SameBlock level ipa ipa' ↔ ipa / 4096 / 512 ^ (3 - level) = ipa' / 4096 / 512 ^ (3 - level) := by
  rw [SameBlock, entry_bytes bound, Nat.div_div_eq_div_mul, Nat.div_div_eq_div_mul]

omit [Platform] in
/-- An entry covers no address beyond the IPA space, as long as it covers one inside. -/
theorem Rd.Shape.block_inside (shape : rd.Shape) {bits : Nat} (small : bits ≤ 39 - 9 * rd.s2StartingLevel)
    (inside : ipa < rd.ipaSize) (same : ipa / 2 ^ bits = ipa' / 2 ^ bits) : ipa' < rd.ipaSize := by
  have split : rd.ipaSize = 2 ^ (rd.ipaBits - bits) * 2 ^ bits := by
    have := shape.halves
    rw [Rd.ipaSize, ← Nat.pow_add]
    congr 1
    omega
  rw [split, ← Nat.div_lt_iff_lt_mul (Nat.two_pow_pos _)] at inside ⊢
  exact same ▸ inside

/-- A walk does not stop above a place that a walk for the same level reaches. -/
theorem Stage2Translation.Arrives.le {t : Stage2Translation} {g last' : Nat} {slot' : Slot}
    (arrives : t.Arrives c g level slot last) (other : t.Arrives c g level slot' last') : last ≤ last' := by
  by_contra above
  rcases other.stop with same | ⟨_, leaf⟩
  · have := arrives.low
    rcases arrives.stop with _ | _ <;> omega
  · have table := tree_above arrives.high (Nat.lt_of_not_le above) other.place arrives.place
    rw [← other.index] at table
    exact nomatch leaf.symm.trans table

/-- There is one place for a page at a level. -/
theorem Stage2Translation.Arrives.slot_eq {t : Stage2Translation} {g l : Nat} {slot' : Slot}
    (arrives : t.Arrives c g level slot last) (other : t.Arrives c g l slot' last) : slot = slot' := by
  have table := Option.some.inj (arrives.place.symm.trans other.place)
  have index := arrives.index.trans other.index.symm
  cases slot
  cases slot'
  exact Slot.mk.injEq .. ▸ ⟨table, index⟩

theorem Stage2Translation.Arrives.unique {t : Stage2Translation} {g last' : Nat} {slot' : Slot}
    (arrives : t.Arrives c g level slot last) (other : t.Arrives c g level slot' last') :
    slot = slot' ∧ last = last' := by
  have same := Nat.le_antisymm (arrives.le other) (other.le arrives)
  subst same
  exact ⟨arrives.slot_eq other, rfl⟩

/-- Where the walk for an address of the realm stops. -/
theorem Rd.Shape.walk_iff (shape : rd.Shape) (inside : ipa < rd.ipaSize) (bound : level ≤ 3) :
    rd.tables.walk c ipa level false = .found slot last ↔ rd.tables.Arrives c (ipa / 4096) level slot last := by
  have arrives := walk_arrives (c := c) shape ipa false bound
  rw [shape.walkPage_eq inside] at arrives
  generalize rd.tables.walk c ipa level false = w at arrives ⊢
  cases w with
  | found slot' last' =>
    constructor
    · intro same
      cases same
      exact arrives.1
    · intro here
      obtain ⟨rfl, rfl⟩ := arrives.1.unique here
      rfl
  | missing => exact nomatch arrives
  | panic => exact absurd inside arrives

theorem Rd.Shape.ipaToPte_of_arrives (shape : rd.Shape) (inside : ipa < rd.ipaSize) (bound : level ≤ 3)
    (arrives : rd.tables.Arrives c (ipa / 4096) level slot last) :
    rd.tables.ipaToPte c ipa level = .found (pte c slot) last := by
  rw [ipaToPte, (shape.walk_iff inside bound).mpr arrives]

theorem Rd.Shape.exists_arrives (shape : rd.Shape) (inside : ipa < rd.ipaSize) (bound : level ≤ 3) :
    ∃ slot last, rd.tables.Arrives c (ipa / 4096) level slot last := by
  have arrives := walk_arrives (c := c) shape ipa false bound
  rw [shape.walkPage_eq inside] at arrives
  generalize rd.tables.walk c ipa level false = w at arrives
  cases w with
  | found slot last => exact ⟨slot, last, arrives.1⟩
  | missing => exact nomatch arrives
  | panic => exact absurd inside arrives

/-- What a walk returns is what is stored where it stops. -/
theorem Rd.Shape.arrives_of_ipaToPte {e : Word} (shape : rd.Shape) (inside : ipa < rd.ipaSize)
    (found : rd.tables.ipaToPte c ipa level = .found e last) :
    level ≤ 3 ∧ ∃ slot, rd.tables.Arrives c (ipa / 4096) level slot last ∧ pte c slot = e := by
  have bound : level ≤ 3 := by
    by_contra high
    rw [ipaToPte, walk, if_pos (Nat.lt_of_not_le high)] at found
    exact nomatch found
  refine ⟨bound, ?_⟩
  cases walked : rd.tables.walk c ipa level false with
  | found slot last' =>
    rw [ipaToPte, walked] at found
    cases found
    exact ⟨slot, (shape.walk_iff inside bound).mp walked, rfl⟩
  | missing =>
    rw [ipaToPte, walked] at found
    exact nomatch found
  | panic =>
    rw [ipaToPte, walked] at found
    exact nomatch found

/-! ### Storing a descriptor -/

theorem tree_storePte {t : Stage2Translation} (slot : Slot) (value : Word) :
    t.tree (storePte slot value c) = (t.tree c).write slot.table slot.index value := by
  unfold tree Forest.write
  congr 1
  funext b i
  exact read_storePte b i

theorem pte_storePte (slot' : Slot) (value : Word) :
    pte (storePte slot value c) slot' = if slot' = slot then value else pte c slot' := by
  refine (read_storePte slot'.table slot'.index).trans ?_
  refine ite_congr (propext ?_) (fun _ => rfl) fun _ => rfl
  cases slot
  cases slot'
  exact (Slot.mk.injEq ..).symm.to_iff

section Store

variable {t : Stage2Translation} {g g' : Nat} {value : Word} (exclusive : (t.tree c).Exclusive)
  (arrives : t.Arrives c g level slot level)

include exclusive arrives

/-- The place that was written is where walks for its level still stop. -/
theorem Stage2Translation.Arrives.written (same : g' / 512 ^ (3 - level) = g / 512 ^ (3 - level)) :
    t.Arrives (storePte slot value c) g' level slot level := by
  refine ⟨?_, ?_, arrives.low, arrives.high, .inl (Nat.max_eq_left arrives.low).symm⟩
  · rw [tree_storePte, same, Forest.node_write_of_not_under exclusive arrives.place]
    · exact arrives.place
    · rintro ⟨_, below, _⟩
      omega
  · rw [same]
    exact arrives.index

/-- Elsewhere walks go on to stop where they stopped. -/
theorem Stage2Translation.Arrives.kept {l : Nat} {slot' : Slot} (other : g' / 512 ^ (3 - level) ≠ g / 512 ^ (3 - level))
    (there : t.Arrives c g' l slot' last) :
    slot' ≠ slot ∧ t.Arrives (storePte slot value c) g' l slot' last := by
  have whole : g / 512 ^ (3 - level) / 512 * 512 + slot.index = g / 512 ^ (3 - level) := by
    rw [arrives.index, Nat.mul_comm]
    exact Nat.div_add_mod _ _
  have apart : slot' ≠ slot := by
    rintro rfl
    obtain ⟨_, rfl, block⟩ := exclusive there.place arrives.place
    refine other ?_
    rw [← whole, ← block, there.index, Nat.mul_comm]
    exact (Nat.div_add_mod _ _).symm
  refine ⟨apart, ?_, there.index, there.low, there.high, ?_⟩
  · rw [tree_storePte, Forest.node_write_of_not_under exclusive arrives.place]
    · exact there.place
    · rintro ⟨_, below, block⟩
      rw [whole] at block
      exact other ((Forest.under_of_lt (g := g') below there.high).2.symm.trans block)
  · rw [pte_storePte, if_neg apart]
    exact there.stop

end Store

section Read

variable {value : Word} (shape : rd.Shape) (exclusive : (rd.tables.tree c).Exclusive) (inside : ipa < rd.ipaSize)
  (arrives : rd.tables.Arrives c (ipa / 4096) level slot level)

include shape exclusive inside arrives

/-- Walks that stop at the written level in its block return the value. -/
theorem Rd.Shape.ipaToPte_written (same : SameBlock level ipa ipa') :
    rd.tables.ipaToPte (storePte slot value c) ipa' level = .found value level ∧
      ∀ l e, rd.tables.ipaToPte (storePte slot value c) ipa' l = .found e level → e = value := by
  have low : rd.s2StartingLevel ≤ level := arrives.low
  have inside' := shape.block_inside (by omega) inside same
  have here : rd.tables.Arrives (storePte slot value c) (ipa' / 4096) level slot level :=
    arrives.written exclusive ((sameBlock_iff arrives.high).mp same).symm
  have stored : pte (storePte slot value c) slot = value := (pte_storePte slot value).trans (if_pos rfl)
  refine ⟨(shape.ipaToPte_of_arrives inside' arrives.high here).trans (by rw [stored]), fun l e found => ?_⟩
  obtain ⟨_, slot', there, rfl⟩ := shape.arrives_of_ipaToPte inside' found
  rw [there.slot_eq here]
  exact stored

omit inside in
/-- Walks outside of the block return what they returned. -/
theorem Rd.Shape.ipaToPte_kept (inside' : ipa' < rd.ipaSize) (other : ¬SameBlock level ipa ipa') (l : Nat) :
    rd.tables.ipaToPte (storePte slot value c) ipa' l = rd.tables.ipaToPte c ipa' l := by
  by_cases bound : l ≤ 3
  · obtain ⟨slot', last, there⟩ := shape.exists_arrives (c := c) inside' bound
    obtain ⟨apart, (still : rd.tables.Arrives (storePte slot value c) _ _ _ _)⟩ := arrives.kept exclusive
      (fun same => other ((sameBlock_iff arrives.high).mpr same.symm)) there
    rw [shape.ipaToPte_of_arrives inside' bound still, shape.ipaToPte_of_arrives inside' bound there, pte_storePte,
      if_neg apart]
  · simp only [ipaToPte, walk, if_pos (Nat.lt_of_not_le bound)]

end Read

/-! ### The entries of a table -/

omit [Platform] in
theorem Rd.walkSize_eq (rd : Rd) (top : rd.s2StartingLevel ≤ 2) : rd.walkSize =
    (if rd.s2StartingLevel = 0 ∨ rd.rttNumStart = 1 then 512 else 512 * 512) * 2 ^ (39 - 9 * rd.s2StartingLevel) := by
  unfold Rd.walkSize
  split_ifs
  · rw [show 48 - 9 * rd.s2StartingLevel = 9 + (39 - 9 * rd.s2StartingLevel) by omega, Nat.pow_add]
  · rw [show 57 - 9 * rd.s2StartingLevel = 18 + (39 - 9 * rd.s2StartingLevel) by omega, Nat.pow_add]

/-- Every entry of the root tables has an address, whether inside the IPA space or not. -/
theorem Rd.Accepted.rootIndex (accepted : rd.Accepted) {i : Nat} (inside : i < 512 * rd.rttNumStart) :
    rd.tables.rootIndex (alignDown (i * 2 ^ (39 - 9 * rd.s2StartingLevel)) 4096) = i := by
  have top := accepted.shape.level_le
  have num := accepted.shape.num_le
  have positive : 0 < 2 ^ (39 - 9 * rd.s2StartingLevel) := Nat.two_pow_pos _
  have small : i * 2 ^ (39 - 9 * rd.s2StartingLevel) < rd.walkSize := by
    rw [rd.walkSize_eq top]
    refine Nat.mul_lt_mul_of_pos_right ?_ positive
    split_ifs with one
    · have : rd.rttNumStart = 1 := one.elim accepted.single (·)
      omega
    · omega
  rw [accepted.shape.rootIndex_mod, Nat.mod_eq_of_lt small, Nat.div_div_eq_div_mul, ← entry_bytes (by omega),
    Nat.mul_div_cancel _ positive]

theorem Rd.Accepted.ipaToPte_root (accepted : rd.Accepted) {i : Nat} (inside : i < 512 * rd.rttNumStart) :
    rd.tables.ipaToPte c (i * 2 ^ (39 - 9 * rd.s2StartingLevel)) rd.s2StartingLevel =
      .found (pte c ⟨rd.rttBase + 4096 * (i / 512), i % 512⟩) rd.s2StartingLevel := by
  have top := accepted.shape.level_le
  have index := accepted.rootIndex inside
  have depth : 3 - rd.s2StartingLevel = 2 - rd.s2StartingLevel + 1 := by omega
  have this : 2 - (2 - rd.s2StartingLevel) = rd.s2StartingLevel := by omega
  have found : rd.tables.walk c (i * 2 ^ (39 - 9 * rd.s2StartingLevel)) rd.s2StartingLevel false =
      .found ⟨rd.rttBase + 4096 * (i / 512), i % 512⟩ rd.s2StartingLevel := by
    unfold walk rootSlot?
    rw [if_neg (by omega)]
    dsimp only
    rw [index, if_pos (show i < 512 * rd.tables.rootPages from inside)]
    change descend c _ rd.s2StartingLevel false (3 - rd.s2StartingLevel) _ = _
    rw [depth, descend, this, if_neg (by omega), Bool.false_and, if_neg Bool.false_ne_true,
      if_neg (fun below => Nat.lt_irrefl _ below.1)]
    rfl
  rw [ipaToPte, found]

/-- The addresses of a table below the root tables. -/
theorem Rd.Shape.ipaToPte_table (shape : rd.Shape) (inside : ipa < rd.ipaSize) (below : rd.s2StartingLevel < last)
    (arrives : rd.tables.Arrives c (ipa / 4096) level slot last) {i : Nat} (index : i < 512) :
    rd.tables.ipaToPte c (alignDown ipa (512 * 2 ^ (39 - 9 * last)) + i * 2 ^ (39 - 9 * last)) last =
      .found (pte c ⟨slot.table, i⟩) last := by
  have high := arrives.high
  have positive : 0 < 2 ^ (39 - 9 * last) := Nat.two_pow_pos _
  have start : alignDown ipa (512 * 2 ^ (39 - 9 * last)) + i * 2 ^ (39 - 9 * last) =
      (ipa / 2 ^ (39 - 9 * last) / 512 * 512 + i) * 2 ^ (39 - 9 * last) := by
    rw [alignDown, Nat.mul_comm 512, ← Nat.div_div_eq_div_mul]
    ring
  rw [start]
  have entry : (ipa / 2 ^ (39 - 9 * last) / 512 * 512 + i) * 2 ^ (39 - 9 * last) / 4096 / 512 ^ (3 - last) =
      ipa / 4096 / 512 ^ (3 - last) / 512 * 512 + i := by
    rw [Nat.div_div_eq_div_mul, ← entry_bytes high, Nat.mul_div_cancel _ positive, entry_bytes high,
      ← Nat.div_div_eq_div_mul ipa]
  have table : 2 ^ (48 - 9 * last) = 2 ^ (39 - 9 * last) * 512 := by
    rw [show 48 - 9 * last = 39 - 9 * last + 9 by omega, Nat.pow_add]
  refine shape.ipaToPte_of_arrives (shape.block_inside (show 48 - 9 * last ≤ _ by omega) inside ?_) high ?_
  · rw [table, ← Nat.div_div_eq_div_mul, ← Nat.div_div_eq_div_mul, Nat.mul_div_cancel _ positive]
    omega
  · refine ⟨?_, ?_, arrives.low, high, .inl (Nat.max_eq_left arrives.low).symm⟩
    · rw [entry, show (ipa / 4096 / 512 ^ (3 - last) / 512 * 512 + i) / 512 = ipa / 4096 / 512 ^ (3 - last) / 512 by omega]
      exact arrives.place
    · rw [entry]
      exact (show i = _ by omega)

/-! ### Read over write -/

section

variable {s : Machine}

theorem run_ipaToPteSet {value : Word} {tlbi : Tlbi} (listed : s.core.rttTables rd.id = some rd.tables)
    (found : rd.tables.walk s.core ipa level false = .found slot last) :
    ∃ t, (ipaToPteSet rd ipa level value tlbi).run s = (.ok (), t) ∧ t.core = storePte slot value s.core := by
  have spec : wp (ipaToPteSet rd ipa level value tlbi) (fun _ t => t.core = storePte slot value s.core)
      (fun _ _ => False) s := by
    unfold ipaToPteSet
    rw [wp_bind]
    exact wp_walkTo_found listed found rfl
  obtain ⟨_, t, run, core⟩ := returns_of_wp spec
  exact ⟨t, run, core⟩

theorem run_entries {range : TableRange} (listed : s.core.rttTables rd.id = some rd.tables)
    (found : rd.tables.tableEntries s.core ipa level = .found range last) :
    (entries rd ipa level).run s = (.ok (readEntries s.core range, last), s) :=
  run_of_wp (wp_listedEntries listed found ⟨rfl, rfl⟩)

/-- The entries of the table at which the walk stops. -/
theorem Rd.Accepted.entries_listed (accepted : rd.Accepted) (listed : s.core.rttTables rd.id = some rd.tables)
    (inside : ipa < rd.ipaSize) (bound : level ≤ 3) (arrives : rd.tables.Arrives s.core (ipa / 4096) level slot last) :
    ∃ list, (entries rd ipa level).run s = (.ok (list, last), s) ∧ list.length = rd.tables.entriesAt last ∧
      ∀ i, (index : i < list.length) →
        rd.tables.ipaToPte s.core (rd.tables.tableStart ipa last + i * 2 ^ (39 - 9 * last)) last =
          .found (list.get ⟨i, index⟩) last := by
  have shape := accepted.shape
  have found := tableEntries_of_walk shape.level_le ((shape.walk_iff inside bound).mpr arrives)
  refine ⟨_, run_entries listed found, ?_, fun i index => ?_⟩
  · by_cases root : last = rd.tables.rootLevel
    · simp [readEntries, entriesAt, root]
    · simp [readEntries, entriesAt, root]
  · by_cases root : last = rd.s2StartingLevel
    · subst root
      rw [tableStart, if_pos (show rd.s2StartingLevel = rd.tables.rootLevel from rfl), Nat.zero_add,
        accepted.ipaToPte_root ?_]
      · simp [readEntries, Rd.tables]
      · simpa [readEntries, Rd.tables] using index
    · have low : rd.s2StartingLevel ≤ last := arrives.low
      have small : i < 512 := by simpa [readEntries, Rd.tables, root] using index
      rw [tableStart, if_neg (show last ≠ rd.tables.rootLevel from root),
        shape.ipaToPte_table inside (by omega) arrives small]
      simp [readEntries, Rd.tables, root, Nat.div_eq_of_lt small, Nat.mod_eq_of_lt small]

/-- Tables that serve one place each are a map. After `ipa_to_pte_set` at a level at which the walk stops, a walk that
stops at that level in the same block returns the value, and walks outside of the block return what they returned. The
entries that are listed for an address are those that walks return for the addresses of the table. -/
theorem read_over_write (accepted : rd.Accepted) (listed : s.core.rttTables rd.id = some rd.tables)
    (exclusive : (rd.tables.tree s.core).Exclusive) :
    (∀ {ipa level e}, ipa < rd.ipaSize → rd.tables.ipaToPte s.core ipa level = .found e level → ∀ value tlbi,
      ∃ t, (ipaToPteSet rd ipa level value tlbi).run s = (.ok (), t) ∧
        (∀ ipa', SameBlock level ipa ipa' → rd.tables.ipaToPte t.core ipa' level = .found value level ∧
          ∀ l e', rd.tables.ipaToPte t.core ipa' l = .found e' level → e' = value) ∧
        ∀ ipa' < rd.ipaSize, ¬SameBlock level ipa ipa' → ∀ l,
          rd.tables.ipaToPte t.core ipa' l = rd.tables.ipaToPte s.core ipa' l) ∧
    ∀ {ipa level}, ipa < rd.ipaSize → level ≤ 3 → ∃ list last,
      (entries rd ipa level).run s = (.ok (list, last), s) ∧ list.length = rd.tables.entriesAt last ∧
      (∃ e, rd.tables.ipaToPte s.core ipa level = .found e last) ∧
      ∀ i, (index : i < list.length) →
        rd.tables.ipaToPte s.core (rd.tables.tableStart ipa last + i * 2 ^ (39 - 9 * last)) last =
          .found (list.get ⟨i, index⟩) last := by
  have shape := accepted.shape
  refine ⟨fun {ipa level e} inside stops value tlbi => ?_, fun {ipa level} inside bound => ?_⟩
  · obtain ⟨bound, slot, arrives, _⟩ := shape.arrives_of_ipaToPte inside stops
    obtain ⟨t, run, core⟩ := run_ipaToPteSet listed ((shape.walk_iff inside bound).mpr arrives)
    refine ⟨t, run, fun ipa' same => ?_, fun ipa' inside' other => ?_⟩
    · rw [core]
      exact shape.ipaToPte_written exclusive inside arrives same
    · rw [core]
      exact shape.ipaToPte_kept exclusive arrives inside' other
  · obtain ⟨slot, last, arrives⟩ := shape.exists_arrives (c := s.core) inside bound
    obtain ⟨list, run, length, entry⟩ := accepted.entries_listed listed inside bound arrives
    exact ⟨list, last, run, length, ⟨_, shape.ipaToPte_of_arrives inside bound arrives⟩, entry⟩

/-- The tables of a realm serve one place each. -/
theorem Core.Inv.tree_exclusive {a : Nat} (inv : c.Inv) (realm : c.realm? a = some rd) :
    (rd.tables.tree c).Exclusive := by
  intro _ l p _ l' p' b left right
  rw [Core.tree_node realm] at left right
  exact ⟨rfl, (inv.tables.exclusive left right).2⟩

open Sample in
omit [Platform] in
/-- The first gigabyte of a realm. -/
theorem read_over_write_gigabyte : ∃ _ : Platform, ∃ (s t : Machine) (rd : Rd), s.Reachable ∧
    s.core.realm? (bankAt 0) = some rd ∧ (ipaToPteSet rd 0 1 0 .none).run s = (.ok (), t) ∧
    rd.tables.ipaToPte t.core 0x3fffffff 1 = .found 0 1 := by
  obtain ⟨s, reached, rd, realm, kind⟩ : ∃ s : Machine, s.Reachable ∧ ∃ rd, s.core.realm? (bankAt 0) = some rd ∧
      decide (rd.s2StartingLevel = 1 ∧ rd.rttNumStart = 1 ∧ rd.ipaBits = 39) = true :=
    ⟨created, created_via.reachable, (Option.any_eq_true _ _).mp (by decide +kernel)⟩
  obtain ⟨level, roots, bits⟩ := of_decide_eq_true kind
  have accepted : rd.Accepted := by
    refine ⟨⟨⟨realmPage 39 (bankAt 1) 1 1⟩, bankAt 0, by decide, ?_, ?_, ?_⟩, ?_⟩
    · rw [level]
      decide
    · rw [roots]
      decide
    · rw [bits]
      decide
    · rw [level, roots]
      rfl
  have first : rd.tables.ipaToPte s.core 0 1 = .found (pte s.core ⟨rd.rttBase, 0⟩) 1 := by
    have root := accepted.ipaToPte_root (c := s.core) (i := 0) (by rw [roots]; omega)
    rwa [level] at root
  have inside : 0 < rd.ipaSize := Nat.two_pow_pos _
  obtain ⟨t, run, here, _⟩ := (read_over_write accepted (reached.inv.realms.registered realm)
    (reached.inv.tree_exclusive realm)).1 inside first 0 .none
  exact ⟨platform, s, t, rd, reached, realm, run, (here 0x3fffffff (by decide)).1⟩

end

end Islet.Rmm
