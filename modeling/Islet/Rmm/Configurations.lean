import Mathlib.Tactic.IntervalCases
import Islet.Lib.Checked
import Islet.Rmm.Progress

/-! The configurations of realms: what the check of the parameters of REALM_CREATE accepts, and what becomes of it. The
check computes with the starting level as it comes from the host, a signed number taken as an unsigned one. -/

namespace Islet.Rmm

open Lib Bits Vmsa

namespace RealmParams

variable (p : RealmParams)

section Checked

open Checked

/-- The part of `verify_compliance` that computes, up to the number of root tables. Without result an operation
overflows. `none` inside is an error that is returned. -/
def numRootRtts? : Option (Option Nat) := do
  let rttSlvl := p.rttLevelStart.toNat
  let level ← sub 3 rttSlvl
  let stride ← mul 64 level 9
  let minIpaBits ← (add 64 stride 12).bind (add 64 · 1)
  let maxIpaBits ← (add 64 minIpaBits 8).bind (add 64 · 4)
  let slIpaBits ← (add 64 stride 12).bind (add 64 · 9)
  if p.ipaBits < minIpaBits ∨ maxIpaBits < p.ipaBits then return none
  if p.ipaBits ≤ slIpaBits then return some 1
  return some (← shiftLeft 32 1 (← sub p.ipaBits slIpaBits))

/-- With a level that exists nothing overflows. -/
theorem numRootRtts?_of_le (small : p.rttLevelStart.toNat ≤ 3) : p.numRootRtts? =
    some (if p.ipaBits < (3 - p.rttLevelStart.toNat) * 9 + 13 ∨ (3 - p.rttLevelStart.toNat) * 9 + 25 < p.ipaBits then none
      else some (if p.ipaBits ≤ (3 - p.rttLevelStart.toNat) * 9 + 21 then 1
        else 2 ^ (p.ipaBits - ((3 - p.rttLevelStart.toNat) * 9 + 21)))) := by
  unfold numRootRtts?
  dsimp only
  rw [sub_of_le small]
  have few : 3 - p.rttLevelStart.toNat ≤ 3 := by omega
  generalize 3 - p.rttLevelStart.toNat = level at few ⊢
  have stride : mul 64 level 9 = some (level * 9) := mul_of_lt (by omega)
  have pages : add 64 (level * 9) 12 = some (level * 9 + 12) := add_of_lt (by omega)
  have least : add 64 (level * 9 + 12) 1 = some (level * 9 + 13) := add_of_lt (by omega)
  have more : add 64 (level * 9 + 13) 8 = some (level * 9 + 21) := add_of_lt (by omega)
  have most : add 64 (level * 9 + 21) 4 = some (level * 9 + 25) := add_of_lt (by omega)
  have single : add 64 (level * 9 + 12) 9 = some (level * 9 + 21) := add_of_lt (by omega)
  simp only [Option.bind_eq_bind, Option.bind_some, stride, pages, least, more, most, single]
  by_cases range : p.ipaBits < level * 9 + 13 ∨ level * 9 + 25 < p.ipaBits
  · rw [if_pos range, if_pos range]
    rfl
  · rw [if_neg range, if_neg range]
    by_cases single : p.ipaBits ≤ level * 9 + 21
    · rw [if_pos single, if_pos single]
      rfl
    · have narrow : p.ipaBits - (level * 9 + 21) ≤ 4 := by omega
      have fits : 2 ^ (p.ipaBits - (level * 9 + 21)) ≤ 2 ^ 4 := Nat.pow_le_pow_right (by omega) narrow
      rw [if_neg single, if_neg single, sub_of_le (by omega), Option.bind_some, shiftLeft_of_lt (by omega) (by omega),
        Nat.one_mul]
      rfl

theorem numRootRtts?_of_lt (large : 3 < p.rttLevelStart.toNat) : p.numRootRtts? = none := by
  rw [numRootRtts?, sub_of_lt large]
  rfl

variable [Platform]

/-- `verify_compliance` with arithmetic that is checked. -/
def verifyCompliance? (rd : Nat) : Option Bool :=
  if p.rttBase = rd then some false
  else if p.rttBase % granuleSize ≠ 0 then some false
  else if featuresValidate p.s2sz = false then some false
  else p.numRootRtts?.map fun num? => match num? with
    | none => false
    | some num => num == p.rttNumStart && p.lpa2 == 0 && simdValidate p.sveEn p.sveVl && p.pmu == 0 &&
        (p.hashAlgo == hashAlgoSha256 || p.hashAlgo == hashAlgoSha512)

omit [Platform] in
/-- The checks that come before the arithmetic. -/
def RejectedEarly (rd : Nat) : Prop :=
  p.rttBase = rd ∨ p.rttBase % granuleSize ≠ 0 ∨ featuresValidate p.s2sz = false

omit [Platform] in
/-- With a level that exists, the wrapping arithmetic computes the same. -/
theorem wrapping_of_le (small : p.rttLevelStart.toNat ≤ 3) (low : 32 ≤ p.ipaBits) (high : p.ipaBits ≤ 48) :
    (BitVec.ofNat 64 p.ipaBits < p.minIpaBits ↔ p.ipaBits < (3 - p.rttLevelStart.toNat) * 9 + 13) ∧
      (p.maxIpaBits < BitVec.ofNat 64 p.ipaBits ↔ (3 - p.rttLevelStart.toNat) * 9 + 25 < p.ipaBits) ∧
      (¬(3 - p.rttLevelStart.toNat) * 9 + 25 < p.ipaBits → p.numRootRtts =
        if p.ipaBits ≤ (3 - p.rttLevelStart.toNat) * 9 + 21 then 1
        else 2 ^ (p.ipaBits - ((3 - p.rttLevelStart.toNat) * 9 + 21))) := by
  have levels : p.rttLevelStart = 0#64 ∨ p.rttLevelStart = 1#64 ∨ p.rttLevelStart = 2#64 ∨ p.rttLevelStart = 3#64 := by
    bv_omega
  simp only [numRootRtts, minIpaBits, maxIpaBits, slIpaBits, RealmParams.levels]
  generalize p.ipaBits = bits at low high ⊢
  rcases levels with same | same | same | same
  all_goals
    simp only [same]
    clear same small
    interval_cases bits <;> decide

theorem verifyCompliance?_of_early {rd : Nat} (early : p.RejectedEarly rd) :
    p.verifyCompliance? rd = some (p.verifyCompliance rd) := by
  unfold verifyCompliance? verifyCompliance
  rcases early with same | unaligned | features
  · simp [same]
  · simp [unaligned]
  · simp [features]

/-- The check computes exactly, unless the level does not exist. -/
theorem verifyCompliance?_of_le {rd : Nat} (small : p.rttLevelStart.toNat ≤ 3) :
    p.verifyCompliance? rd = some (p.verifyCompliance rd) := by
  by_cases early : p.RejectedEarly rd
  · exact p.verifyCompliance?_of_early early
  simp only [RejectedEarly, not_or, Bool.not_eq_false] at early
  obtain ⟨other, aligned, features⟩ := early
  have bounds : 32 ≤ p.ipaBits ∧ p.ipaBits ≤ 48 := by simpa [featuresValidate, ipaBits] using features
  obtain ⟨least, most, roots⟩ := p.wrapping_of_le small bounds.1 bounds.2
  unfold verifyCompliance? verifyCompliance
  rw [if_neg other, if_neg aligned, if_neg (by simp [features]), p.numRootRtts?_of_le small]
  simp only [least, most]
  by_cases range : p.ipaBits < (3 - p.rttLevelStart.toNat) * 9 + 13 ∨ (3 - p.rttLevelStart.toNat) * 9 + 25 < p.ipaBits
  · rw [if_pos range]
    rcases range with less | more
    · simp [less]
    · simp [more]
  · rw [if_neg range]
    rw [not_or] at range
    rw [roots range.2]
    have aligned : p.rttBase % granuleSize = 0 := not_not.mp aligned
    have differs : (p.rttBase != rd) = true := bne_iff_ne.mpr other
    simp [range, differs, aligned, features]

/-- It overflows exactly for levels that do not exist, unless it ends before. -/
theorem verifyCompliance?_iff (rd : Nat) : p.verifyCompliance? rd = some (p.verifyCompliance rd) ↔
    p.RejectedEarly rd ∨ p.rttLevelStart.toNat ≤ 3 := by
  constructor
  · intro exact
    by_contra rejected
    simp only [RejectedEarly, not_or] at rejected
    obtain ⟨⟨other, aligned, features⟩, large⟩ := rejected
    rw [verifyCompliance?, if_neg other, if_neg aligned, if_neg features, p.numRootRtts?_of_lt (by omega)] at exact
    exact nomatch exact
  · rintro (early | small)
    · exact p.verifyCompliance?_of_early early
    · exact p.verifyCompliance?_of_le small

/-- The number of tables of a level that cover an IPA space of so many bits. -/
def tablesNeeded (level bits : Nat) : Nat := (2 ^ bits + 2 ^ (48 - 9 * level) - 1) / 2 ^ (48 - 9 * level)

/-- What is accepted with a level that exists. -/
theorem accepted_of_le {rd : Nat} (small : p.rttLevelStart.toNat ≤ 3) (accepted : p.verifyCompliance rd = true) :
    p.rttLevelStart.toNat ≤ 2 ∧ 32 ≤ p.s2sz ∧ p.s2sz ≤ 48 ∧
      p.rttNumStart = tablesNeeded p.rttLevelStart.toNat p.s2sz ∧ 1 ≤ p.rttNumStart ∧ p.rttNumStart ≤ 16 := by
  simp only [verifyCompliance, featuresValidate, Bool.and_eq_true, decide_eq_true_eq, Bool.not_eq_true',
    Bool.or_eq_false_iff, decide_eq_false_iff_not, beq_iff_eq] at accepted
  obtain ⟨⟨⟨⟨⟨⟨⟨⟨_, _⟩, low, high⟩, range⟩, roots⟩, _⟩, _⟩, _⟩, _⟩ := accepted
  have levels : p.rttLevelStart = 0#64 ∨ p.rttLevelStart = 1#64 ∨ p.rttLevelStart = 2#64 ∨ p.rttLevelStart = 3#64 := by
    bv_omega
  simp only [numRootRtts, minIpaBits, maxIpaBits, slIpaBits, RealmParams.levels] at range roots
  rw [← roots]
  unfold ipaBits at range ⊢
  generalize p.s2sz = bits at low high range ⊢
  rcases levels with same | same | same | same
  all_goals
    simp only [same] at range ⊢
    clear same roots small
    interval_cases bits <;> revert range <;> decide

/-- The check of the parameters computes without overflow, and accepts a starting level between 0 and 2, an IPA space
of 32 to 48 bits, and as many tables as are needed for it. -/
structure CheckedExactly (rd : Nat) : Prop where
  exact : p.verifyCompliance? rd = some (p.verifyCompliance rd)
  accepts : p.verifyCompliance rd = true → 0 ≤ p.rttLevelStart.toInt ∧ p.rttLevelStart.toInt ≤ 2 ∧ 32 ≤ p.s2sz ∧
    p.s2sz ≤ 48 ∧ p.rttNumStart = tablesNeeded p.rttLevelStart.toNat p.s2sz ∧ 1 ≤ p.rttNumStart ∧ p.rttNumStart ≤ 16

/-- This is so exactly for the levels up to 3, and for parameters that are rejected before the level is looked at. -/
theorem checkedExactly_iff (rd : Nat) : p.CheckedExactly rd ↔ p.RejectedEarly rd ∨ p.rttLevelStart.toNat ≤ 3 := by
  rw [← verifyCompliance?_iff]
  refine ⟨fun checked => checked.exact, fun exact => ⟨exact, fun accepted => ?_⟩⟩
  rcases (p.verifyCompliance?_iff rd).mp exact with early | small
  · simp only [verifyCompliance, Bool.and_eq_true, beq_iff_eq, bne_iff_ne] at accepted
    rcases early with same | unaligned | features
    · exact absurd same accepted.1.1.1.1.1.1.1.1
    · exact absurd accepted.1.1.1.1.1.1.1.2 unaligned
    · cases features.symm.trans accepted.1.1.1.1.1.1.2
  · obtain ⟨level, bounds⟩ := p.accepted_of_le small accepted
    have signed : p.rttLevelStart.toInt = p.rttLevelStart.toNat := BitVec.toInt_eq_toNat_of_lt (by omega)
    exact ⟨by omega, by omega, bounds⟩

end Checked

/-- A level that is not one: nine times its distance from 3 is 19 modulo `2 ^ 64`. -/
def wrappedLevel : RealmParams := ⟨realmPage 32 (bankAt 1) 0x71c71c71c71c71c8 1⟩

/-- It is accepted by wrapping arithmetic, after an overflow. -/
theorem checkedExactly_fails : ∃ _ : Platform, wrappedLevel.verifyCompliance? (bankAt 0) = none ∧
    wrappedLevel.verifyCompliance (bankAt 0) = true ∧ ¬wrappedLevel.CheckedExactly (bankAt 0) := by
  let platform : Platform := default
  have overflows : wrappedLevel.verifyCompliance? (bankAt 0) = none := by decide
  refine ⟨platform, overflows, ?_, fun checked => ?_⟩
  · decide
  · have exact := checked.exact
    rw [overflows] at exact
    exact nomatch exact

end RealmParams

/-! ### Root tables -/

/-- `Root`: the root tables that there is a type for. -/
inductive Root where
  | l0n1
  | l0n16
  | l1n1
  | l1n2
  | l1n8
  | l2n4
  | l2n8
  | l2n16
  deriving DecidableEq, Repr

namespace Root

/-- The variant that `Stage2Translation::new` takes, `none` where it ends in `todo!()`. -/
def new? (rootLevel rootPages : Nat) : Option Root :=
  match rootLevel with
  | 0 =>
    match rootPages with
    | 1 => some l0n1
    | 16 => some l0n16
    | _ => none
  | 1 =>
    match rootPages with
    | 1 => some l1n1
    | 2 => some l1n2
    | 8 => some l1n8
    | _ => none
  | 2 =>
    match rootPages with
    | 4 => some l2n4
    | 8 => some l2n8
    | 16 => some l2n16
    | _ => none
  | _ => none

/-- `NUM_ENTRIES` of the table in a variant. -/
def numEntries : Root → Nat
  | l0n1 | l1n1 => 4096 / 8
  | l1n2 => 4096 * 2 / 8
  | l2n4 => 4096 * 4 / 8
  | l1n8 | l2n8 => 4096 * 8 / 8
  | l0n16 | l2n16 => 4096 * 16 / 8

/-- The variants are the shapes that are supported. -/
theorem isSome_new? (rootLevel rootPages : Nat) :
    (new? rootLevel rootPages).isSome = Stage2Translation.supported rootLevel rootPages := by
  unfold new? Stage2Translation.supported
  split
  · split <;> simp_all
  · split <;> simp_all
  · split <;> simp_all
  · simp_all

theorem numEntries_of_new? {rootLevel rootPages : Nat} {root : Root} (made : new? rootLevel rootPages = some root) :
    root.numEntries = rootPages * 512 := by
  unfold new? at made
  split at made
  · split at made <;> cases made <;> rfl
  · split at made <;> cases made <;> rfl
  · split at made <;> cases made <;> rfl
  · exact nomatch made

end Root

namespace Stage2Translation

/-- `Entry::index` in the table that the walk of `ipa` visits at a level. -/
def indexAt (t : Stage2Translation) (ipa level : Nat) : Nat :=
  if level = t.rootLevel then t.rootIndex (alignDown ipa 4096) else RawGpa.index level (alignDown ipa 4096)

/-- The number of entries of that table. -/
def entriesAt (t : Stage2Translation) (level : Nat) : Nat := if level = t.rootLevel then 512 * t.rootPages else 512

/-- The indices from the root tables down to the pages. -/
def indexPath (t : Stage2Translation) (ipa : Nat) : List Nat :=
  (List.range' t.rootLevel (4 - t.rootLevel)).map (t.indexAt ipa)

end Stage2Translation

/-- Walks of the tables of the shape use indices that exist, and separate pages. -/
structure Stage2Translation.Separates (t : Stage2Translation) (bits : Nat) : Prop where
  inside : ∀ {ipa level}, ipa < 2 ^ bits → t.rootLevel ≤ level → level ≤ 3 → t.indexAt ipa level < t.entriesAt level
  injective : ∀ {ipa ipa'}, ipa < 2 ^ bits → ipa' < 2 ^ bits → ipa / 4096 ≠ ipa' / 4096 →
    t.indexPath ipa ≠ t.indexPath ipa'

namespace Rd

variable {rd : Rd}

/-- The size of the space in which a walk finds its way: the index of a root table has 9 bits, and the index of a table
in its row 9 more. -/
def walkSize (rd : Rd) : Nat :=
  if rd.s2StartingLevel = 0 ∨ rd.rttNumStart = 1 then 2 ^ (48 - 9 * rd.s2StartingLevel)
  else 2 ^ (57 - 9 * rd.s2StartingLevel)

/-- The size of what the root tables have entries for. -/
def rootSize (rd : Rd) : Nat := 512 * rd.rttNumStart * 2 ^ (39 - 9 * rd.s2StartingLevel)

theorem Shape.ipaSize_le (shape : rd.Shape) : rd.ipaSize ≤ rd.walkSize := by
  have small := shape.covered
  have bits : 2 ^ rd.ipaBits ≤ 2 ^ 48 := Nat.pow_le_pow_right (by omega) shape.bits
  have pages := shape.num_le
  have levels := shape.level_le
  unfold ipaSize walkSize
  generalize rd.s2StartingLevel = level at small levels ⊢
  have cases : level = 0 ∨ level = 1 ∨ level = 2 := by omega
  by_cases single : rd.rttNumStart = 1
  · rw [single] at small
    rw [if_pos (.inr single)]
    rcases cases with rfl | rfl | rfl <;> omega
  · rcases cases with rfl | rfl | rfl
    · exact bits
    · rw [if_neg (by omega)]
      omega
    · rw [if_neg (by omega)]
      omega

/-- A walk does not see the address beyond. -/
theorem Shape.rootIndex_mod (shape : rd.Shape) (ipa : Nat) :
    rd.tables.rootIndex (alignDown ipa 4096) = ipa % rd.walkSize / 4096 / 512 ^ (3 - rd.s2StartingLevel) := by
  have pages := shape.num_le
  have levels := shape.level_le
  have cases : rd.s2StartingLevel = 0 ∨ rd.s2StartingLevel = 1 ∨ rd.s2StartingLevel = 2 := by omega
  unfold Stage2Translation.rootIndex walkSize tables
  rcases cases with level | level | level
  · rw [level]
    simp only [true_or, if_true]
    rw [index_page ipa (by omega)]
    omega
  · rw [level]
    simp only [Nat.zero_add]
    rw [index_page ipa (by omega), index_page ipa (by omega)]
    by_cases single : rd.rttNumStart = 1
    · rw [if_neg (by omega), if_pos (.inr single)]
      omega
    · rw [if_pos (by omega), if_neg (by omega)]
      omega
  · rw [level]
    simp only [Nat.reduceAdd]
    rw [index_page ipa (by omega), index_page ipa (by omega)]
    by_cases single : rd.rttNumStart = 1
    · rw [if_neg (by omega), if_pos (.inr single)]
      omega
    · rw [if_pos (by omega), if_neg (by omega)]
      omega

theorem Shape.indexAt_root (shape : rd.Shape) (ipa : Nat) : rd.tables.indexAt ipa rd.s2StartingLevel =
    ipa % rd.walkSize / 4096 / 512 ^ (3 - rd.s2StartingLevel) :=
  (if_pos rfl).trans (shape.rootIndex_mod ipa)

theorem Shape.indexAt_below (shape : rd.Shape) {ipa level : Nat} (deeper : rd.s2StartingLevel < level)
    (bound : level ≤ 3) : rd.tables.indexAt ipa level = ipa % rd.walkSize / 4096 / 512 ^ (3 - level) % 512 := by
  rw [Stage2Translation.indexAt, if_neg (show level ≠ rd.tables.rootLevel from Nat.ne_of_gt deeper),
    index_page ipa bound]
  have levels := shape.level_le
  unfold walkSize
  generalize rd.s2StartingLevel = start at deeper levels ⊢
  interval_cases start <;> interval_cases level <;> split_ifs <;> omega

/-- The indices are the digits of the page number in that space. -/
theorem Shape.indexPath_iff (shape : rd.Shape) {ipa ipa' : Nat} : rd.tables.indexPath ipa = rd.tables.indexPath ipa' ↔
    ipa % rd.walkSize / 4096 = ipa' % rd.walkSize / 4096 := by
  have top := shape.level_le
  constructor
  · intro same
    have equal : ∀ level, rd.s2StartingLevel ≤ level → level ≤ 3 →
        rd.tables.indexAt ipa level = rd.tables.indexAt ipa' level := by
      intro level low high
      have member : level ∈ List.range' rd.s2StartingLevel (4 - rd.s2StartingLevel) :=
        List.mem_range'_1.mpr ⟨low, by omega⟩
      exact List.map_inj_left.mp same level member
    have first := equal rd.s2StartingLevel (Nat.le_refl _) (by omega)
    rw [shape.indexAt_root, shape.indexAt_root] at first
    have digits : ∀ level, rd.s2StartingLevel < level → level ≤ 3 →
        ipa % rd.walkSize / 4096 / 512 ^ (3 - level) % 512 = ipa' % rd.walkSize / 4096 / 512 ^ (3 - level) % 512 := by
      intro level deeper high
      rw [← shape.indexAt_below deeper high, ← shape.indexAt_below deeper high]
      exact equal level (by omega) high
    generalize ipa % rd.walkSize / 4096 = page at first digits ⊢
    generalize ipa' % rd.walkSize / 4096 = page' at first digits ⊢
    generalize rd.s2StartingLevel = start at top first digits
    have last := digits 3 (by omega) (by omega)
    have cases : start = 0 ∨ start = 1 ∨ start = 2 := by omega
    rcases cases with rfl | rfl | rfl
    · have one := digits 1 (by omega) (by omega)
      have two := digits 2 (by omega) (by omega)
      simp only [Nat.reduceSub, Nat.reducePow] at first one two last
      omega
    · have two := digits 2 (by omega) (by omega)
      simp only [Nat.reduceSub, Nat.reducePow] at first two last
      omega
    · simp only [Nat.reduceSub, Nat.reducePow] at first last
      omega
  · intro same
    refine List.map_inj_left.mpr fun level member => ?_
    obtain ⟨low, high⟩ := List.mem_range'_1.mp member
    change rd.s2StartingLevel ≤ level at low
    change level < rd.s2StartingLevel + (4 - rd.s2StartingLevel) at high
    by_cases first : level = rd.s2StartingLevel
    · subst first
      rw [shape.indexAt_root, shape.indexAt_root, same]
    · rw [shape.indexAt_below (by omega) (by omega), shape.indexAt_below (by omega) (by omega), same]

theorem Shape.separates (shape : rd.Shape) : rd.tables.Separates rd.ipaBits := by
  have mod : ∀ {ipa}, ipa < 2 ^ rd.ipaBits → ipa % rd.walkSize = ipa := fun inside =>
    Nat.mod_eq_of_lt (Nat.lt_of_lt_of_le inside shape.ipaSize_le)
  constructor
  · intro ipa level inside low high
    by_cases first : level = rd.s2StartingLevel
    · subst first
      have size : rd.tables.entriesAt rd.s2StartingLevel = 512 * rd.rttNumStart := if_pos rfl
      rw [size]
      exact (if_pos rfl).trans_lt (shape.rootIndex inside).2
    · have deeper : rd.s2StartingLevel < level := Nat.lt_of_le_of_ne low (Ne.symm first)
      rw [Stage2Translation.entriesAt, if_neg (show level ≠ rd.tables.rootLevel from first),
        shape.indexAt_below deeper high]
      exact Nat.mod_lt _ (by omega)
  · intro ipa ipa' inside inside' other same
    rw [shape.indexPath_iff, mod inside, mod inside'] at same
    exact other same

end Rd

namespace RealmParams

variable (p : RealmParams)

/-- The tables that REALM_CREATE makes for the parameters. -/
def tables : Stage2Translation := ⟨p.rttBase, p.rttLevelStart.toNat, p.rttNumStart⟩

/-- There is a type for the root tables, with as many entries as there is room for, and walks work. -/
structure Configures : Prop where
  root : ∃ root, Root.new? p.rttLevelStart.toNat p.rttNumStart = some root ∧ root.numEntries = p.rttNumStart * 512
  walks : p.tables.Separates p.ipaBits

variable [Platform]

variable {p} in
theorem configures_of_supported {rd : Nat} (accepted : p.verifyCompliance rd = true)
    (supported : Stage2Translation.supported p.rttLevelStart.toNat p.rttNumStart = true) : p.Configures := by
  obtain ⟨root, made⟩ := Option.isSome_iff_exists.mp ((Root.isSome_new? _ _).trans supported)
  obtain ⟨covered, halves, bits⟩ := RealmParams.shape accepted supported
  let desc := Rd.created (Content.raw .zero).asRd p
  have shape : desc.Shape := ⟨supported, covered, halves, bits⟩
  exact ⟨⟨root, made, Root.numEntries_of_new? made⟩, shape.separates⟩

variable {p} in
/-- Accepted parameters with a level from 0 to 2 are supported, but for two sizes of the IPA space at level 1. -/
theorem configures_iff {rd : Nat} (accepted : p.verifyCompliance rd = true) (level : p.rttLevelStart.toNat ≤ 2) :
    p.Configures ↔ ¬(p.rttLevelStart.toNat = 1 ∧ (p.ipaBits = 41 ∨ p.ipaBits = 43)) := by
  obtain ⟨_, low, high, num, few⟩ := p.accepted_of_le (by omega) accepted
  constructor
  · rintro ⟨⟨root, made, _⟩, _⟩ ⟨one, bits⟩
    rw [num, one] at made
    rcases bits with bits | bits
    · rw [show p.s2sz = 41 from bits] at made
      exact nomatch made
    · rw [show p.s2sz = 43 from bits] at made
      exact nomatch made
  · intro usual
    refine configures_of_supported accepted ?_
    rw [num] at few ⊢
    unfold ipaBits at usual
    generalize p.s2sz = bits at low high few usual ⊢
    generalize p.rttLevelStart.toNat = start at level few usual ⊢
    interval_cases start <;> interval_cases bits <;> revert few usual <;> decide

omit [Platform] in
/-- One table at level 1 for an IPA space of 39 bits is supported. -/
theorem configures_oneTable : ∃ _ : Platform, (RealmParams.mk (realmPage 39 (bankAt 1) 1 1)).Configures := by
  let platform : Platform := default
  have accepted : (RealmParams.mk (realmPage 39 (bankAt 1) 1 1)).verifyCompliance (bankAt 0) = true := by decide
  exact ⟨platform, (configures_iff accepted (by decide)).mpr (by decide)⟩

omit [Platform] in
/-- Four tables at level 1 are accepted for 41 bits, but there is no type for them. -/
theorem configures_fails : ∃ _ : Platform,
    (RealmParams.mk (realmPage 41 (bankAt 4) 1 4)).verifyCompliance (bankAt 0) = true ∧
      Root.new? 1 4 = none ∧ ¬(RealmParams.mk (realmPage 41 (bankAt 4) 1 4)).Configures := by
  let platform : Platform := default
  refine ⟨platform, by decide, rfl, ?_⟩
  rintro ⟨⟨root, made, _⟩, _⟩
  have shape : Root.new? (RealmParams.mk (realmPage 41 (bankAt 4) 1 4)).rttLevelStart.toNat
      (RealmParams.mk (realmPage 41 (bankAt 4) 1 4)).rttNumStart = none := by decide
  exact nomatch shape.symm.trans made

end RealmParams

end Islet.Rmm
