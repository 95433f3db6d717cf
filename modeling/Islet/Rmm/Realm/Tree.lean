import Islet.Lib.RadixForest
import Islet.Rmm.Realm.Folding

/-! The translation tables of all realms as one forest. Trees are named by the
address of the realm descriptor, tables by their address in memory, and the
numbers at the bottom level are IPA page numbers. The walks of the code are
descents in this forest. -/

namespace Islet.Rmm

open Lib Bits Vmsa

/-- The shapes of realms that the parameter checks of REALM_CREATE and the
supported root tables leave. -/
structure Rd.Shape (rd : Rd) : Prop where
  supported : Stage2Translation.supported rd.s2StartingLevel rd.rttNumStart = true
  /-- The root tables cover the IPA space. -/
  covered : 2 ^ rd.ipaBits ≤ 512 * rd.rttNumStart * 2 ^ (39 - 9 * rd.s2StartingLevel)
  /-- Half of the IPA space is a multiple of what a root entry covers. -/
  halves : 39 - 9 * rd.s2StartingLevel < rd.ipaBits
  bits : rd.ipaBits ≤ 48

theorem Rd.Shape.level_le {rd : Rd} (shape : rd.Shape) : rd.s2StartingLevel ≤ 2 := by
  have supported := shape.supported
  unfold Stage2Translation.supported at supported
  split at supported
  · omega
  · omega
  · omega
  · exact nomatch supported

theorem Rd.Shape.num_le {rd : Rd} (shape : rd.Shape) : 1 ≤ rd.rttNumStart ∧ rd.rttNumStart ≤ 16 := by
  have supported := shape.supported
  unfold Stage2Translation.supported at supported
  split at supported
  · simp at supported
    omega
  · simp at supported
    omega
  · simp at supported
    omega
  · exact nomatch supported

/-- The tables of a realm as `RTT_TABLES` has them. -/
def Rd.tables (rd : Rd) : Stage2Translation := ⟨rd.rttBase, rd.s2StartingLevel, rd.rttNumStart⟩

/-! ### The indices of a walk -/

/-- An entry covers the pages below it. -/
theorem entry_bytes {level : Nat} (bound : level ≤ 3) : 2 ^ (39 - 9 * level) = 4096 * 512 ^ (3 - level) := by
  obtain rfl | rfl | rfl | rfl : level = 0 ∨ level = 1 ∨ level = 2 ∨ level = 3 := by omega
  all_goals norm_num

theorem index_page {level : Nat} (ipa : Nat) (bound : level ≤ 3) :
    RawGpa.index level (alignDown ipa 4096) = ipa / 4096 / 512 ^ (3 - level) % 512 := by
  rw [RawGpa.index_eq _ bound, entry_bytes bound, ← Nat.div_div_eq_div_mul, alignDown,
    Nat.mul_div_cancel _ (by omega)]

/-- The IPA page whose entries a walk for `ipa` visits. Above the IPA space of the
realm the root index wraps around, so this need not be the page of `ipa`. -/
def Rd.walkPage (rd : Rd) (ipa : Nat) : Nat :=
  rd.tables.rootIndex (alignDown ipa 4096) * 512 ^ (3 - rd.s2StartingLevel) +
    ipa / 4096 % 512 ^ (3 - rd.s2StartingLevel)

theorem Rd.walkPage_div (rd : Rd) (ipa : Nat) :
    rd.walkPage ipa / 512 ^ (3 - rd.s2StartingLevel) =
      rd.tables.rootIndex (alignDown ipa 4096) := by
  have positive : 0 < 512 ^ (3 - rd.s2StartingLevel) := Nat.pow_pos (by omega)
  rw [walkPage, Nat.mul_comm, Nat.mul_add_div positive, Nat.div_eq_of_lt (Nat.mod_lt _ positive),
    Nat.add_zero]

/-- Below the root tables a walk uses the index bits of its address. -/
theorem Rd.walkPage_index {rd : Rd} {level : Nat} (ipa : Nat) (below : rd.s2StartingLevel < level)
    (bound : level ≤ 3) :
    RawGpa.index level (alignDown ipa 4096) = rd.walkPage ipa / 512 ^ (3 - level) % 512 := by
  have split : 512 ^ (3 - rd.s2StartingLevel) =
      512 ^ (3 - level) * (512 * 512 ^ (level - 1 - rd.s2StartingLevel)) := by
    rw [← Nat.pow_succ', ← Nat.pow_add]
    congr 1
    omega
  have positive : 0 < 512 ^ (3 - level) := Nat.pow_pos (by omega)
  have rest : ∀ k x : Nat, (k * (512 * 512 ^ (level - 1 - rd.s2StartingLevel)) + x) % 512 = x % 512 := by
    intro k x
    rw [show k * (512 * 512 ^ (level - 1 - rd.s2StartingLevel)) + x =
      x + 512 * (k * 512 ^ (level - 1 - rd.s2StartingLevel)) by ring, Nat.add_mul_mod_self_left]
  rw [index_page ipa bound, walkPage, split, Nat.mod_mul]
  generalize ipa / 4096 = g
  generalize rd.tables.rootIndex (alignDown ipa 4096) = k
  have regroup : k * (512 ^ (3 - level) * (512 * 512 ^ (level - 1 - rd.s2StartingLevel))) +
      (g % 512 ^ (3 - level) +
        512 ^ (3 - level) * (g / 512 ^ (3 - level) % (512 * 512 ^ (level - 1 - rd.s2StartingLevel)))) =
      g % 512 ^ (3 - level) + 512 ^ (3 - level) *
        (k * (512 * 512 ^ (level - 1 - rd.s2StartingLevel)) +
          g / 512 ^ (3 - level) % (512 * 512 ^ (level - 1 - rd.s2StartingLevel))) := by ring
  rw [regroup, Nat.add_mul_div_left _ _ positive, Nat.div_eq_of_lt (Nat.mod_lt _ positive),
    Nat.zero_add, rest, Nat.mod_mul_right_mod]

theorem Rd.Shape.rootIndex {rd : Rd} (shape : rd.Shape) {ipa : Nat} (inside : ipa < rd.ipaSize) :
    rd.tables.rootIndex (alignDown ipa 4096) = ipa / 4096 / 512 ^ (3 - rd.s2StartingLevel) ∧
      rd.tables.rootIndex (alignDown ipa 4096) < 512 * rd.rttNumStart := by
  have small : ipa / 4096 / 512 ^ (3 - rd.s2StartingLevel) < 512 * rd.rttNumStart := by
    have shallow := shape.level_le
    rw [Nat.div_div_eq_div_mul, ← entry_bytes (by omega), Nat.div_lt_iff_lt_mul (Nat.two_pow_pos _)]
    exact Nat.lt_of_lt_of_le inside shape.covered
  suffices same : rd.tables.rootIndex (alignDown ipa 4096) =
      ipa / 4096 / 512 ^ (3 - rd.s2StartingLevel) from ⟨same, same ▸ small⟩
  have supported := shape.supported
  unfold Stage2Translation.supported at supported
  unfold Stage2Translation.rootIndex Rd.tables
  have bits : ipa < 2 ^ 48 :=
    Nat.lt_of_lt_of_le inside (Nat.pow_le_pow_right (by omega) shape.bits)
  split at supported
  · rename_i level
    rw [level] at small ⊢
    simp only
    rw [index_page ipa (by omega)]
    omega
  · rename_i level
    rw [level] at small ⊢
    simp only [Nat.zero_add]
    rw [index_page ipa (by omega), index_page ipa (by omega)]
    simp at supported
    split
    · omega
    · omega
  · rename_i level
    rw [level] at small ⊢
    simp only [Nat.reduceAdd]
    rw [index_page ipa (by omega), index_page ipa (by omega)]
    simp at supported
    split
    · omega
    · omega
  · exact nomatch supported

theorem Rd.Shape.walkPage_eq {rd : Rd} (shape : rd.Shape) {ipa : Nat} (inside : ipa < rd.ipaSize) :
    rd.walkPage ipa = ipa / 4096 := by
  rw [Rd.walkPage, (shape.rootIndex inside).1, Nat.mul_comm]
  exact Nat.div_add_mod _ _

/-! ### Tables and descents -/

variable [Platform]

namespace Core

/-- The descriptor of the realm at an address. -/
def realm? (c : Core) (a : Nat) : Option Rd :=
  if validateAddr a = true ∧ c.stateOf a = .rd then some (c.mem a).asRd else none

/-- The translation tables of all realms. -/
def forest (c : Core) : Forest 512 Nat Nat Word where
  top a := (c.realm? a).elim 0 Rd.s2StartingLevel
  root a p := (c.realm? a).bind fun rd =>
    if p < rd.rttNumStart then some (rd.rttBase + 4096 * p) else none
  read a i := (c.mem a).words i
  next l e := if S2tte.isTable e l then some (getMasked e S2tte.addrTblOrPage).toNat else none

variable {c : Core} {a : Nat} {rd : Rd}

theorem realm?_eq_some : c.realm? a = some rd ↔
    validateAddr a = true ∧ c.stateOf a = .rd ∧ (c.mem a).asRd = rd := by
  unfold realm?
  split
  · rename_i holds
    simp [holds.1, holds.2]
  · rename_i fails
    simp only [reduceCtorEq, false_iff]
    rintro ⟨valid, state, _⟩
    exact fails ⟨valid, state⟩

theorem forest_top (realm : c.realm? a = some rd) : c.forest.top a = rd.s2StartingLevel := by
  simp [forest, realm]

theorem forest_root (realm : c.realm? a = some rd) (p : Nat) :
    c.forest.root a p = if p < rd.rttNumStart then some (rd.rttBase + 4096 * p) else none := by
  simp [forest, realm]

theorem forest_root_none (none : c.realm? a = none) (p : Nat) : c.forest.root a p = Option.none := by
  simp [forest, none]

theorem forest_next {l : Nat} {e : Word} :
    c.forest.next l e = if S2tte.isTable e l then some (S2tte.outAddr e 3) else none := by
  simp [forest, S2tte.toNat_addrTblOrPage]

theorem forest_next_bottom {l : Nat} (e : Word) (bottom : 3 ≤ l) : c.forest.next l e = none := by
  rw [forest_next, if_neg]
  rw [S2tte.isTable_iff]
  omega

/-- A table belongs to a realm, and has a level between the root and the pages. -/
theorem realm_of_node {l p b : Nat} (found : c.forest.node a l p = some b) :
    ∃ rd, c.realm? a = some rd ∧ rd.s2StartingLevel ≤ l ∧ l ≤ max 3 rd.s2StartingLevel := by
  cases realm : c.realm? a with
  | none =>
    -- without roots there is no table at any level
    have nowhere : ∀ l p, c.forest.node a l p = none := by
      intro l
      induction l with
      | zero => intro p; simp [Forest.node, forest_root_none realm]
      | succ l ih => intro p; simp [Forest.node, forest_root_none realm, ih]
    rw [nowhere] at found
    cases found
  | some rd =>
    have low := Forest.top_le_of_node found
    rw [forest_top realm] at low
    refine ⟨rd, rfl, low, ?_⟩
    by_contra high
    have deep : 3 < l ∧ rd.s2StartingLevel < l := by omega
    obtain ⟨m, rfl⟩ : ∃ m, l = m + 1 := ⟨l - 1, by omega⟩
    rw [Forest.node_succ (by rw [forest_top realm]; omega)] at found
    cases entry : c.forest.entry a m p with
    | none => simp [entry] at found
    | some e =>
      rw [entry, Option.bind_some, forest_next_bottom e (by omega)] at found
      cases found

end Core

/-! ### The tables of one realm -/

open Stage2Translation

/-- The tables of one realm, as far as the words in memory tell. -/
def Stage2Translation.tree (t : Stage2Translation) (c : Core) : Forest 512 Unit Nat Word where
  top _ := t.rootLevel
  root _ p := if p < t.rootPages then some (t.base + 4096 * p) else none
  read := c.forest.read
  next := c.forest.next

/-- The tree of a realm is its part of the forest. -/
theorem Core.tree_node {c : Core} {a : Nat} {rd : Rd} (realm : c.realm? a = some rd) (l p : Nat) :
    (rd.tables.tree c).node () l p = c.forest.node a l p :=
  Forest.node_congr (F := c.forest) (G := rd.tables.tree c) (u := ()) (forest_top realm).symm
    (fun p => (forest_root realm p).symm) (fun _ _ => rfl) (fun _ _ _ _ _ => rfl) l p

/-- A walk of the tables for page `g` that was asked for `level` stands at a place of level `last`. -/
structure Stage2Translation.Arrives (t : Stage2Translation) (c : Core) (g level : Nat) (slot : Slot) (last : Nat) :
    Prop where
  place : (t.tree c).node () last (g / 512 ^ (3 - last) / 512) = some slot.table
  index : slot.index = g / 512 ^ (3 - last) % 512
  low : t.rootLevel ≤ last
  high : last ≤ 3
  stop : last = max level t.rootLevel ∨ last < level ∧ S2tte.isTable (pte c slot) last = false

section Tree

variable {t : Stage2Translation} {c : Core} {g : Nat}

theorem tree_child {l b : Nat} (level : l < 3) (place : (t.tree c).node () l (g / 512 ^ (3 - l) / 512) = some b)
    (table : S2tte.isTable (c.forest.read b (g / 512 ^ (3 - l) % 512)) l = true) :
    (t.tree c).node () (l + 1) (g / 512 ^ (3 - (l + 1)) / 512) =
      some (S2tte.outAddr (c.forest.read b (g / 512 ^ (3 - l) % 512)) 3) := by
  exact (Forest.node_step level place).trans ((Core.forest_next (c := c)).trans (if_pos table))

/-- What the descent of the code reaches. -/
theorem descend_arrives {level addr : Nat} {check : Bool} (bound : level ≤ 3)
    (index : ∀ l, t.rootLevel < l → l ≤ 3 → RawGpa.index l addr = g / 512 ^ (3 - l) % 512)
    (depth : Nat) (slot : Slot) (shallow : depth ≤ 3) (low : t.rootLevel ≤ 3 - depth)
    (place : (t.tree c).node () (3 - depth) (g / 512 ^ depth / 512) = some slot.table)
    (offset : slot.index = g / 512 ^ depth % 512)
    (asked : 3 - depth = t.rootLevel ∨ 3 - depth ≤ level) (inner : depth = 0 → level = 3) :
    match descend c addr level check depth slot with
    | .found slot' last => t.Arrives c g level slot' last ∧
        (check = true → S2tte.isValidEntry (pte c slot') = true)
    | .missing => check = true
    | .panic => False := by
  induction depth generalizing slot with
  | zero =>
    have level3 : level = 3 := inner rfl
    unfold descend
    rw [if_neg (by omega)]
    split
    · rename_i found stopped
      split_ifs at stopped with invalid
      cases stopped
      refine ⟨⟨by simpa using place, by simpa using offset, by omega, by omega, ?_⟩, ?_⟩
      · exact .inl (by omega)
      · intro checked
        simpa [checked] using invalid
    · rename_i stopped
      split_ifs at stopped with invalid
      simp only [Bool.and_eq_true] at invalid
      exact invalid.1
    · rename_i stopped
      split_ifs at stopped
  | succ depth ih =>
    have this : 2 - depth = 3 - (depth + 1) := by omega
    unfold descend
    simp only [this]
    rw [if_neg (by omega)]
    by_cases invalid : (check && !S2tte.isValidEntry (pte c slot)) = true
    · rw [if_pos invalid]
      simp only [Bool.and_eq_true] at invalid
      exact invalid.1
    · rw [if_neg invalid]
      by_cases more : 3 - (depth + 1) < level ∧ S2tte.pointsToTableOrPage (pte c slot) = true
      · rw [if_pos more]
        have sub : 3 - (3 - (depth + 1)) = depth + 1 := by omega
        have table : S2tte.isTable (c.forest.read slot.table (g / 512 ^ (depth + 1) % 512))
            (3 - (depth + 1)) = true := by
          rw [← offset, S2tte.isTable_iff]
          exact ⟨by omega, (S2tte.pointsToTableOrPage_iff _).mp more.2⟩
        have child := tree_child (t := t) (c := c) (g := g) (l := 3 - (depth + 1)) (b := slot.table)
          (by omega) (by rw [sub]; exact place) (by rw [sub]; exact table)
        have next : 3 - (depth + 1) + 1 = 3 - depth := by omega
        have rest : 3 - (3 - depth) = depth := by omega
        rw [next, rest, sub, ← offset] at child
        rw [next]
        refine ih _ (by omega) (by omega) ?_ ?_ ?_ ?_
        · rw [child, nextSlot, S2tte.toNat_addrTblOrPage]
          rfl
        · rw [nextSlot, index _ (by omega) (by omega), rest]
        · exact .inr (by omega)
        · intro zero
          omega
      · rw [if_neg more]
        have sub : 3 - (3 - (depth + 1)) = depth + 1 := by omega
        refine ⟨⟨by rw [sub]; exact place, by rw [sub]; exact offset, low, by omega, ?_⟩, ?_⟩
        · by_cases above : 3 - (depth + 1) < level
          · refine .inr ⟨above, ?_⟩
            rw [← Bool.not_eq_true, S2tte.isTable_iff]
            rintro ⟨_, desc⟩
            exact more ⟨above, (S2tte.pointsToTableOrPage_iff _).mpr desc⟩
          · exact .inl (by omega)
        · intro checked
          simpa [checked] using invalid

/-- Above an existing table, the entry on the way to it points to a table. -/
theorem tree_above {l m b d : Nat} (bound : l ≤ 3) (above : m < l)
    (place : (t.tree c).node () m (g / 512 ^ (3 - m) / 512) = some d)
    (there : (t.tree c).node () l (g / 512 ^ (3 - l) / 512) = some b) :
    S2tte.isTable (c.forest.read d (g / 512 ^ (3 - m) % 512)) m = true := by
  by_contra plain
  exact Forest.next_ne_none bound above place there ((Core.forest_next (c := c)).trans (if_neg plain))

/-- The table of the place that a descent reaches. -/
theorem descendTable_of_descend {addr level last : Nat} {slot : Slot} (depth table : Nat) (shallow : depth ≤ 2)
    (found : descend c addr level false depth ⟨table, RawGpa.index (3 - depth) addr⟩ = .found slot last) :
    descendTable c addr level depth table = .found ⟨slot.table, 1⟩ last ∧ 3 - depth ≤ last := by
  induction depth generalizing table with
  | zero =>
    unfold descend at found
    simp only [Bool.false_and, Bool.false_eq_true, if_false] at found
    split_ifs at found
    cases found
    exact ⟨rfl, Nat.le_refl 3⟩
  | succ depth ih =>
    have this : 3 - (depth + 1) = 2 - depth := by omega
    have next : 3 - depth = 2 - depth + 1 := by omega
    unfold descend at found
    simp only [this, Bool.false_and, Bool.false_eq_true, if_false] at found
    unfold descendTable
    simp only
    split_ifs at found with high more
    · rw [if_pos more]
      rw [nextSlot, ← next] at found
      obtain ⟨same, deep⟩ := ih _ (by omega) found
      exact ⟨same, by omega⟩
    · cases found
      rw [if_neg more]
      exact ⟨rfl, by omega⟩

/-- The entries that are listed for an address are those of the table at which its walk stops. -/
theorem tableEntries_of_walk {ipa level last : Nat} {slot : Slot} (top : t.rootLevel ≤ 2)
    (found : t.walk c ipa level false = .found slot last) :
    t.tableEntries c ipa level =
      .found (if last = t.rootLevel then ⟨t.base, t.rootPages⟩ else ⟨slot.table, 1⟩) last := by
  have deeper : 3 - (2 - t.rootLevel) = t.rootLevel + 1 := by omega
  have depth : 3 - t.rootLevel = 2 - t.rootLevel + 1 := by omega
  have this : 2 - (2 - t.rootLevel) = t.rootLevel := by omega
  unfold walk at found
  unfold tableEntries
  split_ifs at found with high
  rw [if_neg high]
  dsimp only at found ⊢
  cases root : t.rootSlot? (alignDown ipa 4096) with
  | none =>
    rw [root] at found
    exact nomatch found
  | some first =>
    rw [root, depth] at found
    simp only [descend, this, Bool.false_and, Bool.false_eq_true, if_false] at found
    rw [if_neg high] at found
    split_ifs at found with more
    · rw [if_pos more.1]
      simp only
      rw [if_pos more.2]
      rw [nextSlot, ← deeper] at found
      obtain ⟨same, below⟩ := descendTable_of_descend _ _ (by omega) found
      rw [same, if_neg (by omega)]
    · cases found
      rw [if_pos rfl]
      split_ifs with below
      · simp only
        rw [if_neg fun points => more ⟨below, points⟩]
      · rfl

section Shape

variable {rd : Rd} (shape : rd.Shape)

theorem tree_root {p : Nat} (inside : p < rd.rttNumStart) :
    (rd.tables.tree c).node () rd.s2StartingLevel p = some (rd.rttBase + 4096 * p) :=
  (Forest.node_top (F := rd.tables.tree c) (t := ())).trans (if_pos inside)

include shape

/-- What a walk of the code reaches. -/
theorem walk_arrives {level : Nat} (ipa : Nat) (check : Bool) (bound : level ≤ 3) :
    match rd.tables.walk c ipa level check with
    | .found slot last => rd.tables.Arrives c (rd.walkPage ipa) level slot last ∧
        (check = true → S2tte.isValidEntry (pte c slot) = true)
    | .missing => check = true
    | .panic => ¬ipa < rd.ipaSize := by
  have top := shape.level_le
  unfold walk
  rw [if_neg (by omega)]
  simp only [rootSlot?]
  by_cases inside : rd.tables.rootIndex (alignDown ipa 4096) < 512 * rd.tables.rootPages
  · rw [if_pos inside]
    have sub : 3 - (3 - rd.s2StartingLevel) = rd.s2StartingLevel := by omega
    have pages : rd.tables.rootIndex (alignDown ipa 4096) / 512 < rd.rttNumStart := by
      have same : rd.tables.rootPages = rd.rttNumStart := rfl
      omega
    have arrives := @descend_arrives _ rd.tables c (rd.walkPage ipa) level (alignDown ipa 4096) check bound
      (fun l below high => Rd.walkPage_index ipa below high) (3 - rd.s2StartingLevel)
      ⟨rd.rttBase + 4096 * (rd.tables.rootIndex (alignDown ipa 4096) / 512),
        rd.tables.rootIndex (alignDown ipa 4096) % 512⟩ (by omega) (by rw [sub]; exact Nat.le_refl _)
      (by rw [sub, Rd.walkPage_div, tree_root pages])
      (by rw [Rd.walkPage_div]) (.inl sub) (fun zero => by omega)
    have shown : ∀ w : Walk Slot,
        (match w with
          | .found slot' last => rd.tables.Arrives c (rd.walkPage ipa) level slot' last ∧
              (check = true → S2tte.isValidEntry (pte c slot') = true)
          | .missing => check = true
          | .panic => False) →
        match w with
        | .found slot last => rd.tables.Arrives c (rd.walkPage ipa) level slot last ∧
            (check = true → S2tte.isValidEntry (pte c slot) = true)
        | .missing => check = true
        | .panic => ¬ipa < rd.ipaSize := by
      intro w holds
      cases w with
      | found slot last => exact holds
      | missing => exact holds
      | panic => exact holds.elim
    exact shown _ arrives
  · rw [if_neg inside]
    intro small
    exact inside (shape.rootIndex small).2

/-- A walk to the level of an existing table ends there. -/
theorem walk_of_node {ipa l b : Nat} (bound : l ≤ 3) (inside : ipa < rd.ipaSize)
    (there : (rd.tables.tree c).node () l (rd.walkPage ipa / 512 ^ (3 - l) / 512) = some b) :
    rd.tables.walk c ipa l false = .found ⟨b, rd.walkPage ipa / 512 ^ (3 - l) % 512⟩ l := by
  have low : rd.tables.rootLevel ≤ l := Forest.top_le_of_node there
  have arrives := walk_arrives (c := c) shape ipa false bound
  generalize rd.tables.walk c ipa l false = w at arrives ⊢
  cases w with
  | found slot last =>
    obtain ⟨arrives, _⟩ := arrives
    have level : last = l := by
      rcases arrives.stop with same | ⟨above, leaf⟩
      · omega
      · have table := tree_above bound above arrives.place there
        rw [← arrives.index] at table
        exact nomatch leaf.symm.trans table
    subst level
    have table : slot.table = b := Option.some.inj (arrives.place.symm.trans there)
    rw [← table, ← arrives.index]
  | missing => exact nomatch arrives
  | panic => exact absurd inside arrives

/-- The entries of an existing table below the roots. -/
theorem tableEntries_of_tree {ipa l b : Nat} (bound : l ≤ 3) (inside : ipa < rd.ipaSize)
    (below : rd.s2StartingLevel < l)
    (there : (rd.tables.tree c).node () l (rd.walkPage ipa / 512 ^ (3 - l) / 512) = some b) :
    rd.tables.tableEntries c ipa l = .found ⟨b, 1⟩ l := by
  rw [tableEntries_of_walk shape.level_le (walk_of_node shape bound inside there)]
  exact congrArg (Walk.found · l) (if_neg (Nat.ne_of_gt below))

end Shape

end Tree

/-! ### Walks of a realm -/

/-- A walk for page `g` that was asked for `level` and started at level `top` stands
at a place of level `last`. -/
structure Reached (c : Core) (a g top level : Nat) (slot : Slot) (last : Nat) : Prop where
  place : c.forest.node a last (g / 512 ^ (3 - last) / 512) = some slot.table
  index : slot.index = g / 512 ^ (3 - last) % 512
  low : top ≤ last
  high : last ≤ 3
  stop : last = max level top ∨ last < level ∧ S2tte.isTable (pte c slot) last = false

section Realm

variable {c : Core} {a : Nat} {rd : Rd} (realm : c.realm? a = some rd) (shape : rd.Shape)

theorem Reached.entry {g top level last : Nat} {slot : Slot} (reached : Reached c a g top level slot last) :
    c.forest.entry a last (g / 512 ^ (3 - last)) = some (pte c slot) := by
  rw [Forest.entry, reached.place, Option.map_some, ← reached.index]
  rfl

/-- A table at a level keeps a descent from stopping above it. -/
theorem Reached.not_above {g top level last l b : Nat} {slot : Slot} (reached : Reached c a g top level slot last)
    (there : c.forest.node a l (g / 512 ^ (3 - l) / 512) = some b) (bound : l ≤ 3)
    (leaf : S2tte.isTable (pte c slot) last = false) : l ≤ last := by
  have stops : c.forest.Leaf 3 a g last (pte c slot) :=
    ⟨reached.high, reached.entry, by rw [Core.forest_next, leaf]; rfl⟩
  exact stops.le_of_node there bound

/-- Above an existing table, the entry on the way to it points to a table. -/
theorem table_above {g l m b d : Nat} (bound : l ≤ 3) (above : m < l)
    (place : c.forest.node a m (g / 512 ^ (3 - m) / 512) = some d)
    (there : c.forest.node a l (g / 512 ^ (3 - l) / 512) = some b) :
    S2tte.isTable (c.forest.read d (g / 512 ^ (3 - m) % 512)) m = true := by
  by_contra plain
  exact Forest.next_ne_none bound above place there (Core.forest_next.trans (if_neg plain))

include realm

theorem root_place {p : Nat} (inside : p < rd.rttNumStart) :
    c.forest.node a rd.s2StartingLevel p = some (rd.rttBase + 4096 * p) :=
  (Core.tree_node realm _ _).symm.trans (tree_root inside)

theorem Stage2Translation.Arrives.reached {g level last : Nat} {slot : Slot}
    (arrives : rd.tables.Arrives c g level slot last) : Reached c a g rd.s2StartingLevel level slot last :=
  ⟨(Core.tree_node realm _ _).symm.trans arrives.place, arrives.index, arrives.low, arrives.high, arrives.stop⟩

include shape

/-- What a walk of the code reaches. -/
theorem walk_reached {level : Nat} (ipa : Nat) (check : Bool) (bound : level ≤ 3) :
    match rd.tables.walk c ipa level check with
    | .found slot last =>
      Reached c a (rd.walkPage ipa) rd.s2StartingLevel level slot last ∧
        (check = true → S2tte.isValidEntry (pte c slot) = true)
    | .missing => check = true
    | .panic => ¬ipa < rd.ipaSize := by
  have arrives := walk_arrives (c := c) shape ipa check bound
  generalize rd.tables.walk c ipa level check = w at arrives ⊢
  cases w with
  | found slot last => exact ⟨arrives.1.reached realm, arrives.2⟩
  | missing => exact arrives
  | panic => exact arrives

/-- A walk to the level of an existing table ends there. -/
theorem walk_to_node {ipa l b : Nat} (bound : l ≤ 3) (inside : ipa < rd.ipaSize)
    (there : c.forest.node a l (rd.walkPage ipa / 512 ^ (3 - l) / 512) = some b) :
    rd.tables.walk c ipa l false = .found ⟨b, rd.walkPage ipa / 512 ^ (3 - l) % 512⟩ l :=
  walk_of_node shape bound inside ((Core.tree_node realm _ _).trans there)

/-- The entries of an existing table below the roots. -/
theorem tableEntries_of_node {ipa l b : Nat} (bound : l ≤ 3) (inside : ipa < rd.ipaSize)
    (below : rd.s2StartingLevel < l)
    (there : c.forest.node a l (rd.walkPage ipa / 512 ^ (3 - l) / 512) = some b) :
    rd.tables.tableEntries c ipa l = .found ⟨b, 1⟩ l :=
  tableEntries_of_tree shape bound inside below ((Core.tree_node realm _ _).trans there)

end Realm

end Islet.Rmm
