import Islet.Rmm.Realm.Descriptors

/-! RTT_FOLD on descriptors: what the scan for a homogeneous table establishes,
and what the descriptor that replaces the table means. For a table of leaves of
the protected half the fold keeps the meaning of every page. A table whose
entries are all tables passes the scan too, and is replaced by an empty entry. -/

namespace Islet.Rmm.Rtt

open Bits S2tte

variable {e : Word} {level : Nat}

/-! ### The scan of a table -/

section Homogeneous

variable {first : Reference} {size pa : Word} {rest : List Word}

/-- Entries of a homogeneous table have one descriptor type. -/
theorem homogeneousRest_desc (same : homogeneousRest level size first pa rest = true) :
    ∀ e ∈ rest, getMaskedValue e descType = first.descType := by
  induction rest generalizing pa with
  | nil => intro e none; exact nomatch none
  | cons e rest ih =>
    unfold homogeneousRest at same
    split at same
    · exact nomatch same
    · rename_i desc
      have tail : ∃ pa, homogeneousRest level size first pa rest = true := by
        split_ifs at same
        · simp only [Bool.and_eq_true] at same
          exact ⟨_, same.2⟩
        · simp only [Bool.and_eq_true] at same
          exact ⟨_, same.2⟩
        · simp only [Bool.and_eq_true] at same
          exact ⟨_, same.2⟩
        · simp only [Bool.and_eq_true] at same
          exact ⟨_, same.2⟩
        · exact ⟨_, same⟩
      obtain ⟨next, tail⟩ := tail
      intro e' member
      rcases List.mem_cons.mp member with rfl | later
      · exact (not_not.mp desc).symm
      · exact ih tail e' later

/-- Entries with granules follow each other in memory and share their RIPAS. -/
theorem homogeneousRest_backed (same : homogeneousRest level size first pa rest = true)
    (notNs : ∀ e ∈ rest, isAssignedNs e level = false)
    (backed : ∀ e ∈ rest, isAssignedRam e level = true ∨ isAssigned e = true) :
    ∀ j e, rest[j]? = some e →
      getMasked e (blockMask level) = pa + BitVec.ofNat 64 (j + 1) * size ∧
        getMaskedValue e invalidRipas = first.ripas := by
  induction rest generalizing pa with
  | nil => intro j e none; simp at none
  | cons e rest ih =>
    unfold homogeneousRest at same
    have here := backed e List.mem_cons_self
    rw [notNs e List.mem_cons_self] at same
    split at same
    · exact nomatch same
    · simp only [Bool.false_eq_true, if_false, Bool.or_eq_true, if_pos here, Bool.and_eq_true,
        beq_iff_eq] at same
      obtain ⟨⟨next, ripas⟩, tail⟩ := same
      have later := ih tail (fun e member => notNs e (List.mem_cons_of_mem _ member))
        (fun e member => backed e (List.mem_cons_of_mem _ member))
      intro j e' found
      cases j with
      | zero =>
        cases Option.some.inj found
        exact ⟨by rw [← next]; simp, ripas.symm⟩
      | succ j =>
        obtain ⟨address, equal⟩ := later j e' found
        refine ⟨?_, equal⟩
        rw [address, BitVec.add_assoc, show j + 1 + 1 = 1 + (j + 1) by omega,
          BitVec.ofNat_add 1 (j + 1), BitVec.add_mul]
        simp

/-- A table that starts unassigned stays unassigned with one RIPAS, if no granule
can sit at the address the scan would accept. -/
theorem homogeneousRest_unassigned (same : homogeneousRest level size first 0 rest = true)
    (plain : ∀ e ∈ rest, isAssignedNs e level = false ∧ isUnassignedNs e = false ∧
      isAssignedRam e level = false)
    (known : ∀ e ∈ rest, isUnassigned e = true ∨
      isAssigned e = true ∧ getMasked e (blockMask level) ≠ size) :
    ∀ e ∈ rest, isUnassigned e = true ∧ getMaskedValue e invalidRipas = first.ripas := by
  induction rest with
  | nil => intro e none; exact nomatch none
  | cons e rest ih =>
    unfold homogeneousRest at same
    obtain ⟨notNs, notFreeNs, notRam⟩ := plain e List.mem_cons_self
    rw [notNs, notFreeNs, notRam] at same
    split at same
    · exact nomatch same
    · simp only [Bool.false_eq_true, if_false, Bool.false_or] at same
      by_cases assigned : isAssigned e = true
      · rw [if_pos assigned] at same
        simp only [Bool.and_eq_true, beq_iff_eq] at same
        rcases known e List.mem_cons_self with free | ⟨_, elsewhere⟩
        · rw [isUnassigned_iff] at free
          rw [isAssigned_iff] at assigned
          omega
        · exact absurd (by rw [← same.1.1]; simp) elsewhere
      · rw [if_neg assigned] at same
        have free : isUnassigned e = true := by
          rcases known e List.mem_cons_self with free | ⟨taken, _⟩
          · exact free
          · exact absurd taken assigned
        rw [if_pos free] at same
        simp only [Bool.and_eq_true, beq_iff_eq] at same
        have later := ih same.2 (fun e member => plain e (List.mem_cons_of_mem _ member))
          (fun e member => known e (List.mem_cons_of_mem _ member))
        intro e' member
        rcases List.mem_cons.mp member with rfl | member
        · exact ⟨free, same.1.2.symm⟩
        · exact later e' member

/-- A table that starts assigned has no unassigned entry. -/
theorem homogeneousRest_assigned (same : homogeneousRest level size first pa rest = true)
    (hipas : first.hipas = assigned) (notNs : ∀ e ∈ rest, isUnassignedNs e = false) :
    ∀ e ∈ rest, isUnassigned e = false := by
  induction rest generalizing pa with
  | nil => intro e none; exact nomatch none
  | cons e rest ih =>
    unfold homogeneousRest at same
    rw [notNs e List.mem_cons_self] at same
    simp only [Bool.false_eq_true, if_false] at same
    have later : ∀ next, homogeneousRest level size first next rest = true → isUnassigned e = false →
        ∀ e' ∈ e :: rest, isUnassigned e' = false := by
      intro next tail here e' member
      rcases List.mem_cons.mp member with rfl | member
      · exact here
      · exact ih tail (fun e member => notNs e (List.mem_cons_of_mem _ member)) e' member
    have leaf : ∀ (m : Bool), (m = true → nsNum e ≠ 0 ∨ descNum e ≠ 0 ∨ hipasNum e ≠ 0) → m = true →
        isUnassigned e = false := by
      intro m implies holds
      by_contra free
      rw [Bool.not_eq_false, isUnassigned_iff] at free
      have := implies holds
      omega
    split_ifs at same with _ mappedNs backed free
    · simp only [Bool.and_eq_true] at same
      refine later _ same.2 (leaf _ (fun holds => ?_) mappedNs)
      exact .inl ((isAssignedNs_iff e level).mp holds).1
    · simp only [Bool.and_eq_true] at same
      refine later _ same.2 (leaf _ (fun holds => ?_) backed)
      rw [Bool.or_eq_true, isAssignedRam_iff, isAssigned_iff] at holds
      omega
    · simp only [Bool.and_eq_true, beq_iff_eq] at same
      rw [hipas] at same
      have zero := (hipas_eq (e := e) (v := assigned)).mp same.1.1.symm
      rw [isUnassigned_iff] at free
      exact absurd free.2.1 (by rw [zero]; decide)
    · exact later _ same (by simpa using free)

end Homogeneous

/-! ### The descriptor that replaces a table -/

/-- The attributes of the block that replaces a table of mapped pages. -/
def foldAttr (e : Word) : Word :=
  getMasked e ns ||| getMasked e (memattr ||| s2ap ||| sh) ||| l012Block

/-- The attributes of the entry that replaces a table of assigned pages. -/
def foldAssignedAttr (e : Word) : Word :=
  getMasked e ns ||| getMasked e (s2ap ||| sh) ||| getMasked e invalidHipas |||
    getMasked e invalidRipas

theorem fields_foldAttr (e : Word) :
    IsAttr (foldAttr e) ∧ descNum (foldAttr e) = 1 ∧ nsNum (foldAttr e) = nsNum e := by
  refine ⟨?_, ?_, ?_⟩
  · exact ((IsAttr.getMasked (by decide)).or (IsAttr.getMasked (by decide))).or (by decide)
  · simp only [foldAttr, getMasked, descNum_or, descNum_and, show descNum ns = 0 by decide,
      show descNum (memattr ||| s2ap ||| sh) = 0 by decide, Nat.and_zero]
    decide
  · simp only [foldAttr, getMasked, nsNum_or, nsNum_and, show nsNum ns = 1 by decide,
      show nsNum (memattr ||| s2ap ||| sh) = 0 by decide, show nsNum l012Block = 0 by decide,
      Nat.and_zero, Nat.or_zero, nsNum_and_one]

theorem fields_foldAssignedAttr (e : Word) :
    IsAttr (foldAssignedAttr e) ∧ descNum (foldAssignedAttr e) = 0 ∧
      hipasNum (foldAssignedAttr e) = hipasNum e ∧ ripasNum (foldAssignedAttr e) = ripasNum e ∧
      nsNum (foldAssignedAttr e) = nsNum e := by
  refine ⟨?_, ?_, ?_, ?_, ?_⟩
  · exact (((IsAttr.getMasked (by decide)).or (IsAttr.getMasked (by decide))).or
      (IsAttr.getMasked (by decide))).or (IsAttr.getMasked (by decide))
  · simp only [foldAssignedAttr, getMasked, descNum_or, descNum_and, show descNum ns = 0 by decide,
      show descNum (s2ap ||| sh) = 0 by decide, show descNum invalidHipas = 0 by decide,
      show descNum invalidRipas = 0 by decide, Nat.and_zero, Nat.or_zero]
  · simp only [foldAssignedAttr, getMasked, hipasNum_or, hipasNum_and,
      show hipasNum ns = 0 by decide, show hipasNum (s2ap ||| sh) = 0 by decide,
      show hipasNum invalidHipas = 7 by decide, show hipasNum invalidRipas = 0 by decide,
      Nat.and_zero, Nat.or_zero, Nat.zero_or, hipasNum_and_seven]
  · -- the access permissions overlap the RIPAS field in one bit, which is the same bit of `e`
    have overlap : ∀ r < 4, (r &&& 2 ||| r) = r := by decide
    simp only [foldAssignedAttr, getMasked, ripasNum_or, ripasNum_and,
      show ripasNum ns = 0 by decide, show ripasNum (s2ap ||| sh) = 2 by decide,
      show ripasNum invalidHipas = 0 by decide, show ripasNum invalidRipas = 3 by decide,
      Nat.and_zero, Nat.or_zero, Nat.zero_or, ripasNum_and_three]
    exact overlap _ (Nat.mod_lt _ (by omega))
  · simp only [foldAssignedAttr, getMasked, nsNum_or, nsNum_and, show nsNum ns = 1 by decide,
      show nsNum (s2ap ||| sh) = 0 by decide, show nsNum invalidHipas = 0 by decide,
      show nsNum invalidRipas = 0 by decide, Nat.and_zero, Nat.or_zero, nsNum_and_one]

section FoldDesc

variable {new : Word} {isProtected : Bool}

theorem foldDesc_mapped (mapped : isAssignedRam e level = true ∨ isAssignedNs e level = true)
    (made : foldDesc e level isProtected = some new) :
    new = getMasked e (blockMask level) ||| foldAttr e := by
  have bounds : 1 ≤ level ∧ level ≤ 3 := by
    rw [isAssignedRam_iff, isAssignedNs_iff] at mapped
    omega
  simp only [foldDesc, Bool.or_eq_true, if_pos mapped, addrAsBlock?, if_pos bounds, Option.map_some]
    at made
  rw [← Option.some.inj made, foldAttr]
  simp [BitVec.or_assoc]

theorem foldDesc_assigned (holds : isAssigned e = true) (low : 1 ≤ level) (high : level ≤ 3)
    (made : foldDesc e level isProtected = some new) :
    new = getMasked e (blockMask level) ||| foldAssignedAttr e := by
  have notMapped : ¬(isAssignedRam e level = true ∨ isAssignedNs e level = true) := by
    rw [isAssignedRam_iff, isAssignedNs_iff]
    rw [isAssigned_iff] at holds
    omega
  simp only [foldDesc, Bool.or_eq_true, if_neg notMapped, if_pos holds, addrAsBlock?,
    if_pos (show 1 ≤ level ∧ level ≤ 3 from ⟨low, high⟩), Option.map_some] at made
  rw [← Option.some.inj made, foldAssignedAttr]
  simp [BitVec.or_assoc]

/-- Every other entry folds to its NS bit and, in the protected half, its RIPAS. -/
theorem foldDesc_plain (notMapped : ¬(isAssignedRam e level = true ∨ isAssignedNs e level = true))
    (notAssigned : ¬isAssigned e = true) (made : foldDesc e level isProtected = some new) :
    descNum new = 0 ∧ hipasNum new = 0 ∧ nsNum new = nsNum e ∧
      ripasNum new = if isProtected then ripasNum e else 0 := by
  simp only [foldDesc, Bool.or_eq_true, if_neg notMapped, if_neg notAssigned] at made
  cases isProtected
  · simp only [Bool.false_eq_true, if_false, Option.some.injEq] at made
    rw [← made, getMasked, descNum_and, hipasNum_and, nsNum_and, ripasNum_and, show descNum ns = 0 by decide,
      show hipasNum ns = 0 by decide, show nsNum ns = 1 by decide, show ripasNum ns = 0 by decide, nsNum_and_one]
    simp
  · simp only [if_true, Option.some.injEq] at made
    rw [← made]
    simp only [getMasked, descNum_or, descNum_and, hipasNum_or, hipasNum_and, nsNum_or, nsNum_and,
      ripasNum_or, ripasNum_and, show descNum ns = 0 by decide, show hipasNum ns = 0 by decide,
      show nsNum ns = 1 by decide, show ripasNum ns = 0 by decide,
      show descNum invalidRipas = 0 by decide, show hipasNum invalidRipas = 0 by decide,
      show nsNum invalidRipas = 0 by decide, show ripasNum invalidRipas = 3 by decide,
      Nat.and_zero, Nat.or_zero, Nat.zero_or, nsNum_and_one, ripasNum_and_three]
    simp

/-- A fold never makes a table. -/
theorem isTable_foldDesc {l : Nat} (low : 1 ≤ level) (high : level ≤ 3) (made : foldDesc e level isProtected = some new) :
    isTable new l = false := by
  obtain ⟨page, _, _⟩ := isPage_block (e := e) low high
  have desc : descNum new ≤ 1 := by
    by_cases mapped : isAssignedRam e level = true ∨ isAssignedNs e level = true
    · obtain ⟨attr, newDesc, _⟩ := fields_foldAttr e
      rw [foldDesc_mapped mapped made, (madeOf_or page attr (Nat.le_refl 3) page.aligned).desc, newDesc]
    by_cases assigned : isAssigned e = true
    · obtain ⟨attr, newDesc, _⟩ := fields_foldAssignedAttr e
      rw [foldDesc_assigned assigned low high made, (madeOf_or page attr (Nat.le_refl 3) page.aligned).desc, newDesc]
      omega
    · rw [(foldDesc_plain mapped assigned made).1]
      omega
  rw [← Bool.not_eq_true, isTable_iff]
  omega

end FoldDesc

/-! ### Folding a table of the protected half -/

/-- What is known about the entries of a table of the protected half. -/
structure ProtectedEntry (level : Nat) (e : Word) : Prop where
  table : isTable e level = true → e.toNat = outAddr e 3 + 3
  leaf : isTable e level = false → (view level e).Protected
  backing : ∀ pa, (view level e).backing? = some pa → 0x80000000 ≤ pa

theorem ProtectedEntry.cases {level : Nat} {e : Word} (ok : ProtectedEntry level e) :
    (isTable e level = true) ∨
      (isUnassigned e = true ∧ view level e = .unassigned (ripasNum e)) ∨
      (isAssigned e = true ∧ 1 ≤ level ∧ level ≤ 3 ∧
        view level e = .assigned (outAddr e level) (ripasNum e)) ∨
      (nsNum e = 0 ∧ 1 ≤ level ∧ level ≤ 3 ∧ view level e = .ram (outAddr e level) ∧
        (level = 3 ∧ descNum e = 3 ∨ level ≤ 2 ∧ descNum e = 1)) := by
  cases table : isTable e level with
  | true => exact .inl rfl
  | false =>
    have leaf := ok.leaf table
    cases meaning : view level e with
    | table addr => rw [meaning] at leaf; exact leaf.elim
    | unassigned ripas =>
      obtain ⟨holds, rfl⟩ := isUnassigned_of_view meaning
      exact .inr (.inl ⟨holds, rfl⟩)
    | assigned pa ripas =>
      obtain ⟨holds, low, high, rfl, rfl⟩ := isAssigned_of_view meaning
      exact .inr (.inr (.inl ⟨holds, low, high, rfl⟩))
    | ram pa =>
      obtain ⟨ns, rfl, low, high, desc⟩ := mapped_of_view meaning
      exact .inr (.inr (.inr ⟨ns, low, high, rfl, desc⟩))
    | unassignedNs => rw [meaning] at leaf; exact leaf.elim
    | ns pa => rw [meaning] at leaf; exact leaf.elim
    | malformed => rw [meaning] at leaf; exact leaf.elim

/-- An entry of the protected half is never taken for one of the other half. -/
theorem ProtectedEntry.notNs {level : Nat} {e : Word} (ok : ProtectedEntry level e) :
    isAssignedNs e level = false ∧ isUnassignedNs e = false := by
  rw [← Bool.not_eq_true, ← Bool.not_eq_true, isAssignedNs_iff, isUnassignedNs_iff]
  rcases ok.cases with table | ⟨free, _⟩ | ⟨held, _⟩ | ⟨ns, _⟩
  · rw [isTable_iff] at table
    omega
  · rw [isUnassigned_iff] at free
    omega
  · rw [isAssigned_iff] at held
    omega
  · omega

variable {w : Nat → Word} {new : Word}

/-- The scan in terms of the indices of the table. -/
theorem isHomogeneous_range (w : Nat → Word) (level : Nat) :
    isHomogeneous ((List.range 512).map w) level =
      isHomogeneous (w 0 :: (List.range 511).map fun i => w (i + 1)) level := by
  rw [List.range_succ_eq_map, List.map_cons, List.map_map]
  rfl

theorem mem_rest {w : Nat → Word} {i : Nat} (index : i < 512) (later : 0 < i) :
    w i ∈ (List.range 511).map fun i => w (i + 1) := by
  rw [List.mem_map]
  exact ⟨i - 1, by simp; omega, by rw [Nat.sub_add_cancel later]⟩

theorem rest_getElem {w : Nat → Word} {i : Nat} (index : i < 512) (later : 0 < i) :
    ((List.range 511).map fun i => w (i + 1))[i - 1]? = some (w i) := by
  rw [List.getElem?_map, List.getElem?_range (by omega), Option.map_some, Nat.sub_add_cancel later]

/-- All entries of a homogeneous table have the type of the first one. -/
theorem homogeneous_desc (same : isHomogeneous ((List.range 512).map w) level = true)
    {i : Nat} (index : i < 512) : descNum (w i) = descNum (w 0) := by
  rcases Nat.eq_zero_or_pos i with rfl | later
  · rfl
  · rw [isHomogeneous_range] at same
    have equal : getMaskedValue (w i) descType = getMaskedValue (w 0) descType := by
      unfold isHomogeneous at same
      simp only at same
      split_ifs at same
      · exact homogeneousRest_desc same _ (mem_rest index later)
      · exact homogeneousRest_desc same _ (mem_rest index later)
    rw [descType_eq] at equal
    rw [equal]
    exact (descType_eq.mp rfl).symm

/-- A table descriptor without attributes is folded to an entry that says unassigned and empty. -/
theorem view_fold_table {l : Nat} {isProtected : Bool} (table : isTable e level = true) (plain : e.toNat = outAddr e 3 + 3)
    (made : foldDesc e level isProtected = some new) : view l new = .unassigned 0 := by
  obtain ⟨inner, desc⟩ := (isTable_iff _ _).mp table
  have notMapped : ¬(isAssignedRam e level = true ∨ isAssignedNs e level = true) := by
    rw [isAssignedRam_iff, isAssignedNs_iff]
    omega
  have notAssigned : ¬isAssigned e = true := by
    rw [isAssigned_iff]
    omega
  obtain ⟨newDesc, newHipas, newNs, newRipas⟩ := foldDesc_plain notMapped notAssigned made
  have small : outAddr e 3 < 2 ^ 48 := outAddr_lt (by omega)
  have aligned : outAddr e 3 % 4096 = 0 := Nat.mul_mod_left _ _
  have ns : nsNum e = 0 := by
    unfold nsNum
    omega
  have ripas : ripasNum e = 0 := by
    unfold ripasNum
    omega
  rw [view_attr newDesc newHipas, newNs, ns, newRipas, if_pos rfl, ripas, ite_self]

/-- A table of tables is replaced by an entry that says unassigned and empty. -/
theorem fold_tables (known : ∀ i < 512, ProtectedEntry level (w i))
    (same : isHomogeneous ((List.range 512).map w) level = true)
    (made : foldDesc (w 0) level true = some new) (first : isTable (w 0) level = true) :
    (∀ i < 512, isTable (w i) level = true) ∧ view (level - 1) new = .unassigned 0 := by
  refine ⟨fun i index => ?_, view_fold_table first ((known 0 (by omega)).table first) made⟩
  rw [isTable_iff, homogeneous_desc same index]
  exact (isTable_iff _ _).mp first

theorem homogeneousRest_tables {first : Reference} {size pa : Word} {rest : List Word}
    (tables : ∀ e ∈ rest, isTable e level = true) (desc : first.descType = 3#64) :
    homogeneousRest level size first pa rest = true := by
  induction rest with
  | nil => rfl
  | cons e rest ih =>
    obtain ⟨inner, three⟩ := (isTable_iff _ _).mp (tables e List.mem_cons_self)
    have same : getMaskedValue e descType = 3#64 := descType_eq.mpr three
    have notNs : isAssignedNs e level = false := by
      rw [← Bool.not_eq_true, isAssignedNs_iff]
      omega
    have notRam : isAssignedRam e level = false := by
      rw [← Bool.not_eq_true, isAssignedRam_iff]
      omega
    have notAssigned : isAssigned e = false := by
      rw [← Bool.not_eq_true, isAssigned_iff]
      omega
    have notUnassignedNs : isUnassignedNs e = false := by
      rw [← Bool.not_eq_true, isUnassignedNs_iff]
      omega
    have notUnassigned : isUnassigned e = false := by
      rw [← Bool.not_eq_true, isUnassigned_iff]
      omega
    simp only [homogeneousRest, desc, same, notNs, notRam, notAssigned, notUnassignedNs, notUnassigned]
    exact ih fun e member => tables e (List.mem_cons_of_mem _ member)

/-- A table whose entries are all tables is taken for homogeneous. -/
theorem homogeneous_of_tables (tables : ∀ i < 512, isTable (w i) level = true) :
    isHomogeneous ((List.range 512).map w) level = true ∧
      ∀ isProtected, foldDesc (w 0) level isProtected ≠ none := by
  obtain ⟨inner, three⟩ := (isTable_iff _ _).mp (tables 0 (by omega))
  have notNs : isAssignedNs (w 0) level = false := by
    rw [← Bool.not_eq_true, isAssignedNs_iff]
    omega
  have notRam : isAssignedRam (w 0) level = false := by
    rw [← Bool.not_eq_true, isAssignedRam_iff]
    omega
  have notAssigned : isAssigned (w 0) = false := by
    rw [← Bool.not_eq_true, isAssigned_iff]
    omega
  constructor
  · have later : ∀ e ∈ (List.range 511).map fun i => w (i + 1), isTable e level = true := by
      intro e member
      obtain ⟨i, index, rfl⟩ := List.mem_map.mp member
      exact tables (i + 1) (by have := List.mem_range.mp index; omega)
    rw [isHomogeneous_range]
    generalize (List.range 511).map (fun i => w (i + 1)) = rest at later ⊢
    simp only [isHomogeneous, notNs, notRam, notAssigned, Bool.or_self, Bool.false_eq_true, if_false]
    exact homogeneousRest_tables later (descType_eq.mpr three)
  · intro isProtected
    simp only [foldDesc, notNs, notRam, notAssigned]
    cases isProtected <;> exact nofun

theorem fold_unassigned (known : ∀ i < 512, ProtectedEntry level (w i)) (low : 1 ≤ level)
    (high : level ≤ 3) (same : isHomogeneous ((List.range 512).map w) level = true)
    (made : foldDesc (w 0) level true = some new) (first : isUnassigned (w 0) = true) :
    view (level - 1) new = .unassigned (ripasNum (w 0)) ∧
      ∀ i < 512, view level (w i) = .unassigned (ripasNum (w 0)) := by
  obtain ⟨desc, hipas, ns⟩ := (isUnassigned_iff _).mp first
  have notMapped : ¬(isAssignedRam (w 0) level = true ∨ isAssignedNs (w 0) level = true) := by
    rw [isAssignedRam_iff, isAssignedNs_iff]
    omega
  have notAssigned : ¬isAssigned (w 0) = true := by
    rw [isAssigned_iff]
    omega
  constructor
  · obtain ⟨newDesc, newHipas, newNs, newRipas⟩ := foldDesc_plain notMapped notAssigned made
    rw [view_attr newDesc newHipas, newNs, ns, newRipas, if_pos rfl, if_pos rfl]
  · have scan : ∀ e ∈ (List.range 511).map (fun i => w (i + 1)),
        isUnassigned e = true ∧ getMaskedValue e invalidRipas = getMaskedValue (w 0) invalidRipas := by
      have member : ∀ e ∈ (List.range 511).map (fun i => w (i + 1)),
          ∃ i < 512, e = w i := by
        intro e found
        obtain ⟨i, index, rfl⟩ := List.mem_map.mp found
        exact ⟨i + 1, by simp at index; omega, rfl⟩
      have descs : ∀ i < 512, descNum (w i) = 0 := by
        intro i index
        rw [homogeneous_desc same index, desc]
      rw [isHomogeneous_range, isHomogeneous] at same
      have start : ¬((isAssignedNs (w 0) level || isAssignedRam (w 0) level ||
          isAssigned (w 0)) = true) := by
        simp only [Bool.or_eq_true]
        tauto
      simp only [if_neg start] at same
      refine homogeneousRest_unassigned same ?_ ?_
      · intro e found
        obtain ⟨i, index, rfl⟩ := member e found
        obtain ⟨notNs, notFreeNs⟩ := (known i index).notNs
        refine ⟨notNs, notFreeNs, ?_⟩
        rw [← Bool.not_eq_true, isAssignedRam_iff]
        have := descs i index
        omega
      · intro e found
        obtain ⟨i, index, rfl⟩ := member e found
        have zero := descs i index
        rcases (known i index).cases with table | ⟨free, _⟩ | ⟨held, _, _, meaning⟩ | ⟨_, _, _, _, leaf⟩
        · rw [isTable_iff] at table
          omega
        · exact .inl free
        · refine .inr ⟨held, ?_⟩
          intro equal
          have granule := (known i index).backing (outAddr (w i) level) (by rw [meaning]; rfl)
          have number := congrArg BitVec.toNat equal
          rw [toNat_blockMask low high, BitVec.toNat_ofNat] at number
          obtain rfl | rfl | rfl : level = 1 ∨ level = 2 ∨ level = 3 := by omega
          all_goals
            simp only [mappingSize?, Option.getD_some] at number
            omega
        · omega
    intro i index
    rcases Nat.eq_zero_or_pos i with rfl | later
    · exact view_of_isUnassigned first
    · obtain ⟨free, equal⟩ := scan _ (mem_rest index later)
      rw [view_of_isUnassigned free, ripas_eq.mp equal]
      exact congrArg View.unassigned (ripas_eq.mp rfl).symm

/-- The step from one entry of a table to the next. -/
def stepWord (level : Nat) : Word := BitVec.ofNat 64 ((mappingSize? level).getD 0)

/-- The first entry of a homogeneous table with addresses starts at an address of the parent's size; the scan goes on
from it. -/
theorem scan_start (same : isHomogeneous ((List.range 512).map w) level = true)
    (start : (isAssignedNs (w 0) level || isAssignedRam (w 0) level || isAssigned (w 0)) = true) :
    (level = 2 ∨ level = 3) ∧ outAddr (w 0) level % 2 ^ (39 - 9 * (level - 1)) = 0 ∧
      homogeneousRest level (stepWord level)
        ⟨getMaskedValue (w 0) descType, getMaskedValue (w 0) invalidHipas, getMaskedValue (w 0) invalidRipas,
          getMaskedValue (w 0) ns, w 0 &&& ~~~((levelMask level).getD 0)⟩
        (getMasked (w 0) (blockMask level)) ((List.range 511).map fun i => w (i + 1)) = true := by
  rw [isHomogeneous_range, isHomogeneous] at same
  simp only [if_pos start] at same
  split_ifs at same with other unaligned
  have levels : level = 2 ∨ level = 3 := by omega
  refine ⟨levels, ?_, same⟩
  rw [← toNat_blockMask (e := w 0) (show 1 ≤ level by omega) (by omega)]
  have inside := not_not.mp unaligned
  generalize getMasked (w 0) (blockMask level) = pa at inside
  have whole : ∀ mask : Word, pa &&& ~~~mask = 0 → pa = getMasked pa mask := by
    intro mask outside
    have both := BitVec.and_or_distrib_left (x := pa) (y := mask) (z := ~~~mask)
    rw [BitVec.or_not_self, BitVec.and_allOnes, outside] at both
    exact both.trans BitVec.or_zero
  rcases levels with rfl | rfl
  · rw [whole addrBlkL1 inside, show addrBlkL1 = defineMask 47 30 from rfl,
      toNat_getMasked_address (by omega)]
    exact Nat.mul_mod_left _ _
  · rw [whole addrBlkL2 inside, show addrBlkL2 = defineMask 47 21 from rfl,
      toNat_getMasked_address (by omega)]
    exact Nat.mul_mod_left _ _

/-- The steps of the scan in numbers. -/
theorem outAddr_step {i : Nat} (levels : level = 2 ∨ level = 3) (index : i < 512)
    (next : getMasked (w i) (blockMask level) = getMasked (w 0) (blockMask level) + BitVec.ofNat 64 i * stepWord level) :
    outAddr (w i) level = outAddr (w 0) level + i * 2 ^ (39 - 9 * level) := by
  have small : outAddr (w 0) level < 2 ^ 48 := outAddr_lt (by omega)
  have number := congrArg BitVec.toNat next
  rw [toNat_blockMask (by omega) (by omega), BitVec.toNat_add, BitVec.toNat_mul,
    toNat_blockMask (by omega) (by omega), stepWord, BitVec.toNat_ofNat, BitVec.toNat_ofNat] at number
  rcases levels with rfl | rfl
  · simp only [mappingSize?, Option.getD_some] at number
    omega
  · simp only [mappingSize?, Option.getD_some] at number
    omega

/-- The other entries of a homogeneous table with granules continue the first one. -/
theorem fold_contiguous (same : isHomogeneous ((List.range 512).map w) level = true)
    (notNs : ∀ i < 512, isAssignedNs (w i) level = false)
    (backed : ∀ i < 512, isAssignedRam (w i) level = true ∨ isAssigned (w i) = true) :
    (level = 2 ∨ level = 3) ∧ outAddr (w 0) level % 2 ^ (39 - 9 * (level - 1)) = 0 ∧
      ∀ i < 512, outAddr (w i) level = outAddr (w 0) level + i * 2 ^ (39 - 9 * level) ∧
        ripasNum (w i) = ripasNum (w 0) := by
  have member : ∀ e ∈ (List.range 511).map (fun i => w (i + 1)), ∃ i < 512, e = w i := by
    intro e found
    obtain ⟨i, index, rfl⟩ := List.mem_map.mp found
    exact ⟨i + 1, by simp at index; omega, rfl⟩
  have start : (isAssignedNs (w 0) level || isAssignedRam (w 0) level || isAssigned (w 0)) = true := by
    rcases backed 0 (by omega) with first | first
    · rw [first, Bool.or_true, Bool.true_or]
    · rw [first, Bool.or_true]
  obtain ⟨levels, aligned, rest⟩ := scan_start same start
  have scan := homogeneousRest_backed rest
    (fun e found => by obtain ⟨i, index, rfl⟩ := member e found; exact notNs i index)
    (fun e found => by obtain ⟨i, index, rfl⟩ := member e found; exact backed i index)
  refine ⟨levels, aligned, ?_⟩
  intro i index
  rcases Nat.eq_zero_or_pos i with rfl | later
  · exact ⟨by omega, rfl⟩
  · obtain ⟨next, ripas⟩ := scan (i - 1) (w i) (rest_getElem index later)
    rw [Nat.sub_add_cancel later] at next
    refine ⟨outAddr_step levels index next, ?_⟩
    rw [ripas_eq.mp ripas]
    exact (ripas_eq.mp rfl).symm

/-- The block steps of a table in pages. -/
theorem step_pages (i : Nat) (levels : level = 2 ∨ level = 3) :
    i * 2 ^ (39 - 9 * level) = 4096 * (i * 512 ^ (3 - level)) := by
  rcases levels with rfl | rfl
  · ring
  · ring

theorem fold_assigned (known : ∀ i < 512, ProtectedEntry level (w i)) (low : 1 ≤ level)
    (high : level ≤ 3) (same : isHomogeneous ((List.range 512).map w) level = true)
    (made : foldDesc (w 0) level true = some new) (first : isAssigned (w 0) = true) :
    ∃ v, view (level - 1) new = v ∧ v.isTable = false ∧
      ∀ i < 512, view level (w i) = v.at_ (i * 512 ^ (3 - level)) := by
  obtain ⟨desc, hipas, ns⟩ := (isAssigned_iff _).mp first
  have free : ∀ i < 512, isUnassigned (w i) = false := by
    intro i index
    rcases Nat.eq_zero_or_pos i with rfl | later
    · rw [← Bool.not_eq_true, isUnassigned_iff]
      omega
    · have notNs : ∀ e ∈ (List.range 511).map (fun i => w (i + 1)), isUnassignedNs e = false := by
        intro e found
        obtain ⟨i, index, rfl⟩ := List.mem_map.mp found
        exact (known (i + 1) (by simp at index; omega)).notNs.2
      have scanned := same
      rw [isHomogeneous_range, isHomogeneous] at scanned
      simp only [first, Bool.or_true, if_true] at scanned
      split_ifs at scanned
      exact homogeneousRest_assigned scanned (hipas_eq.mpr hipas) notNs _ (mem_rest index later)
  have held : ∀ i < 512, isAssigned (w i) = true := by
    intro i index
    have zero := homogeneous_desc same index
    rcases (known i index).cases with table | ⟨unassigned, _⟩ | ⟨held, _⟩ | ⟨_, _, _, _, leaf⟩
    · rw [isTable_iff] at table
      omega
    · rw [free i index] at unassigned
      exact nomatch unassigned
    · exact held
    · omega
  obtain ⟨levels, aligned, steps⟩ := fold_contiguous same (fun i index => (known i index).notNs.1)
    (fun i index => .inr (held i index))
  refine ⟨.assigned (outAddr (w 0) level) (ripasNum (w 0)), ?_, rfl, ?_⟩
  · obtain ⟨attr, newDesc, newHipas, newRipas, newNs⟩ := fields_foldAssignedAttr (w 0)
    obtain ⟨page, address, _⟩ := isPage_block (e := w 0) low high
    rw [foldDesc_assigned first low high made]
    have built : MadeOf _ (level - 1) _ _ := madeOf_or page attr (by omega) (by rw [address]; exact aligned)
    rw [address] at built
    rw [built.view (by omega), newDesc, newHipas, newRipas, newNs, hipas, ns]
    simp [show 1 ≤ level - 1 by omega, show level - 1 ≤ 3 by omega]
  · intro i index
    obtain ⟨next, ripas⟩ := steps i index
    rw [view_of_isAssigned (held i index) low high, next, ripas, step_pages i levels]
    rfl

theorem fold_ram (known : ∀ i < 512, ProtectedEntry level (w i)) (low : 2 ≤ level) (high : level ≤ 3)
    (same : isHomogeneous ((List.range 512).map w) level = true)
    (made : foldDesc (w 0) level true = some new) (first : isAssignedRam (w 0) level = true) :
    ∃ v, view (level - 1) new = v ∧ v.isTable = false ∧
      ∀ i < 512, view level (w i) = v.at_ (i * 512 ^ (3 - level)) := by
  obtain ⟨ns, leaf⟩ := (isAssignedRam_iff _ _).mp first
  have mapped : ∀ i < 512, isAssignedRam (w i) level = true := by
    intro i index
    have desc := homogeneous_desc same index
    rw [isAssignedRam_iff]
    rcases (known i index).cases with table | ⟨free, _⟩ | ⟨held, _⟩ | ⟨zero, _, _, _, _⟩
    · rw [isTable_iff] at table
      omega
    · rw [isUnassigned_iff] at free
      omega
    · rw [isAssigned_iff] at held
      omega
    · omega
  obtain ⟨levels, aligned, steps⟩ := fold_contiguous same (fun i index => (known i index).notNs.1)
    (fun i index => .inl (mapped i index))
  refine ⟨.ram (outAddr (w 0) level), ?_, rfl, ?_⟩
  · obtain ⟨attr, newDesc, newNs⟩ := fields_foldAttr (w 0)
    obtain ⟨page, address, _⟩ := isPage_block (e := w 0) (by omega) high
    rw [foldDesc_mapped (.inl first) made]
    have built : MadeOf _ (level - 1) _ _ := madeOf_or page attr (by omega) (by rw [address]; exact aligned)
    rw [address] at built
    rw [built.view (by omega), newDesc, newNs, ns]
    simp [show 1 ≤ level - 1 by omega, show level ≤ 3 by omega]
  · intro i index
    rw [view_of_isAssignedRam (mapped i index), (steps i index).1, step_pages i levels]
    rfl

/-- Folding a table of the protected half either drops a table of tables, or keeps
the meaning of every page. `huge` excludes 512 blocks of a gigabyte. -/
theorem fold_protected (known : ∀ i < 512, ProtectedEntry level (w i)) (low : 1 ≤ level)
    (high : level ≤ 3) (huge : level = 1 → ∃ i < 512, ∀ pa, view 1 (w i) ≠ .ram pa)
    (same : isHomogeneous ((List.range 512).map w) level = true)
    (made : foldDesc (w 0) level true = some new) :
    ((∀ i < 512, isTable (w i) level = true) ∧ view (level - 1) new = .unassigned 0) ∨
      ∃ v, view (level - 1) new = v ∧ v.isTable = false ∧
        ∀ i < 512, view level (w i) = v.at_ (i * 512 ^ (3 - level)) := by
  rcases (known 0 (by omega)).cases with table | ⟨free, _⟩ | ⟨held, _⟩ | ⟨ns, _, _, _, leaf⟩
  · exact .inl (fold_tables known same made table)
  · obtain ⟨folded, entries⟩ := fold_unassigned known low high same made free
    exact .inr ⟨_, folded, rfl, entries⟩
  · exact .inr (fold_assigned known low high same made held)
  · by_cases small : 2 ≤ level
    · exact .inr (fold_ram known small high same made ((isAssignedRam_iff _ _).mpr ⟨ns, by omega⟩))
    · -- blocks of a gigabyte: the scan compares nothing but their type
      have one : level = 1 := by omega
      subst one
      obtain ⟨i, index, notRam⟩ := huge rfl
      have desc := homogeneous_desc same index
      rcases (known i index).cases with table | ⟨free, _⟩ | ⟨held, _⟩ | ⟨_, _, _, meaning, _⟩
      · rw [isTable_iff] at table
        omega
      · rw [isUnassigned_iff] at free
        omega
      · rw [isAssigned_iff] at held
        omega
      · exact absurd meaning (notRam _)

/-! ### Folding a table of the unprotected half -/

/-- Entries that the host has mapped follow each other in memory and share everything else. -/
theorem homogeneousRest_ns {first : Reference} {size pa : Word} {rest : List Word}
    (mapped : ∀ e ∈ rest, isAssignedNs e level = true ∧ first.descType = getMaskedValue e descType) :
    homogeneousRest level size first pa rest = true ↔ ∀ j e, rest[j]? = some e →
      getMasked e (blockMask level) = pa + BitVec.ofNat 64 (j + 1) * size ∧
        e &&& ~~~((levelMask level).getD 0) = first.attr := by
  induction rest generalizing pa with
  | nil => simp [homogeneousRest]
  | cons e rest ih =>
    obtain ⟨here, desc⟩ := mapped e List.mem_cons_self
    have step : ∀ j, pa + size + BitVec.ofNat 64 (j + 1) * size = pa + BitVec.ofNat 64 (j + 1 + 1) * size := fun j => by
      rw [BitVec.ofNat_add (j + 1) 1, BitVec.add_mul, BitVec.one_mul, BitVec.add_assoc, BitVec.add_comm size]
    rw [homogeneousRest, if_neg (not_not.mpr desc), if_pos here]
    simp only [Bool.and_eq_true, beq_iff_eq, ih fun e member => mapped e (List.mem_cons_of_mem _ member), step]
    constructor
    · rintro ⟨⟨next, attr⟩, later⟩ j e' found
      cases j with
      | zero =>
        cases Option.some.inj found
        exact ⟨by rw [← next]; simp, attr.symm⟩
      | succ j => exact later j e' found
    · intro all
      obtain ⟨next, attr⟩ := all 0 e rfl
      exact ⟨⟨by rw [next]; simp, attr.symm⟩, fun j e' found => all (j + 1) e' found⟩

/-- A table of mapped entries of the unprotected half is homogeneous exactly if they are one aligned run of memory with
the same attributes. -/
theorem homogeneous_ns (mapped : ∀ i < 512, isAssignedNs (w i) level = true) :
    isHomogeneous ((List.range 512).map w) level = true ↔
      getMasked (w 0) (blockMask level) &&& ~~~((levelMask (level - 1)).getD 0) = 0 ∧
        ∀ i < 512, 0 < i →
          getMasked (w i) (blockMask level) = getMasked (w 0) (blockMask level) + BitVec.ofNat 64 i * stepWord level ∧
          w i &&& ~~~((levelMask level).getD 0) = w 0 &&& ~~~((levelMask level).getD 0) := by
  have first := mapped 0 (by omega)
  have fields := fun i index => (isAssignedNs_iff (w i) level).mp (mapped i index)
  have levels : ¬(level ≠ 2 ∧ level ≠ 3) := by
    have := fields 0 (by omega)
    omega
  rw [isHomogeneous_range, isHomogeneous]
  simp only [first, Bool.true_or, if_true, if_neg levels]
  split_ifs with aligned
  · exact iff_of_false nofun fun both => aligned both.1
  · rw [homogeneousRest_ns]
    · refine ⟨fun scan => ⟨not_not.mp aligned, fun i index later => ?_⟩, fun ⟨_, steps⟩ j e found => ?_⟩
      · have here := scan (i - 1) (w i) (rest_getElem index later)
        rwa [Nat.sub_add_cancel later] at here
      · obtain ⟨index, rfl⟩ := List.getElem?_eq_some_iff.mp found
        simp only [List.length_map, List.length_range] at index
        simp only [List.getElem_map, List.getElem_range]
        exact steps (j + 1) (by omega) (by omega)
    · intro e found
      obtain ⟨i, index, rfl⟩ := List.mem_map.mp found
      have below : i + 1 < 512 := by simp at index; omega
      refine ⟨mapped _ below, ?_⟩
      have zero := fields 0 (by omega)
      have here := fields _ below
      rw [descType_eq, ← descType_eq.mp rfl]
      omega

theorem isPage_step {i : Nat} (index : i < 512) :
    (BitVec.ofNat 64 (i * 4096)).toNat = i * 4096 ∧ IsPage (BitVec.ofNat 64 (i * 4096)) := by
  have value : (BitVec.ofNat 64 (i * 4096)).toNat = i * 4096 := by
    rw [BitVec.toNat_ofNat]
    omega
  exact ⟨value, by omega, by omega⟩

theorem fold_ns {isProtected : Bool} (high : level ≤ 3) (mapped : ∀ i < 512, isAssignedNs (w i) level = true)
    (same : isHomogeneous ((List.range 512).map w) level = true) (made : foldDesc (w 0) level isProtected = some new) :
    view (level - 1) new = .ns (outAddr (w 0) level) ∧
      ∀ i < 512, view level (w i) = (View.ns (outAddr (w 0) level)).at_ (i * 512 ^ (3 - level)) := by
  have first := mapped 0 (by omega)
  obtain ⟨levels, aligned, _⟩ := scan_start same (by rw [first, Bool.true_or, Bool.true_or])
  obtain ⟨_, steps⟩ := (homogeneous_ns mapped).mp same
  constructor
  · obtain ⟨attr, newDesc, newNs⟩ := fields_foldAttr (w 0)
    obtain ⟨page, address, _⟩ := isPage_block (e := w 0) (by omega) high
    rw [foldDesc_mapped (.inr first) made]
    have built : MadeOf _ (level - 1) _ _ := madeOf_or page attr (by omega) (by rw [address]; exact aligned)
    rw [address] at built
    rw [built.view (by omega), newDesc, newNs]
    simp [show 1 ≤ level - 1 by omega, show level ≤ 3 by omega, ((isAssignedNs_iff _ _).mp first).1]
  · intro i index
    have next : outAddr (w i) level = outAddr (w 0) level + i * 2 ^ (39 - 9 * level) := by
      rcases Nat.eq_zero_or_pos i with rfl | later
      · omega
      · exact outAddr_step levels index (steps i index later).1
    rw [view_of_isAssignedNs (mapped i index), next, step_pages i levels]
    rfl

/-- The entry that replaces a table of the unprotected half belongs to that half. -/
theorem fold_unprotected (known : isTable e level = true ∨ (view level e).Unprotected)
    (low : 1 ≤ level) (high : level ≤ 3) (made : foldDesc e level false = some new) :
    (view (level - 1) new).Unprotected := by
  by_cases mapped : isAssignedRam e level = true ∨ isAssignedNs e level = true
  · have isNs : isAssignedNs e level = true := by
      rcases mapped with ram | isNs
      · rcases known with table | ok
        · rw [isTable_iff] at table
          rw [isAssignedRam_iff] at ram
          omega
        · rw [view_of_isAssignedRam ram] at ok
          exact ok.elim
      · exact isNs
    obtain ⟨ns, leaf⟩ := (isAssignedNs_iff _ _).mp isNs
    obtain ⟨attr, newDesc, newNs⟩ := fields_foldAttr e
    obtain ⟨page, _, _⟩ := isPage_block (e := e) low high
    have built : MadeOf _ 3 _ _ := madeOf_or page attr (by omega) page.aligned
    rw [foldDesc_mapped mapped made, view, built.desc, built.ns, newDesc, newNs]
    simp [show 1 ≤ level - 1 by omega, show level ≤ 3 from high, ns, View.Unprotected]
  · have notAssigned : ¬isAssigned e = true := by
      intro held
      rcases known with table | ok
      · rw [isTable_iff] at table
        rw [isAssigned_iff] at held
        omega
      · rw [view_of_isAssigned held low high] at ok
        exact ok.elim
    obtain ⟨newDesc, newHipas, _, newRipas⟩ := foldDesc_plain mapped notAssigned made
    rw [view_attr newDesc newHipas]
    split
    · exact newRipas
    · trivial

/-- A fold into an entry of level 0 or 1 makes a block only of level-2 entries with an address. -/
theorem foldDesc_vacant {l : Nat} {isProtected : Bool} (low : l ≤ 1)
    (same : isHomogeneous ((List.range 512).map w) (l + 1) = true)
    (made : foldDesc (w 0) (l + 1) isProtected = some new) :
    (view l new).Vacant ∨ l = 1 ∧ (isAssigned (w 0) = true ∨ isAssignedRam (w 0) 2 = true ∨
      isAssignedNs (w 0) 2 = true) := by
  by_cases mapped : isAssignedRam (w 0) (l + 1) = true ∨ isAssignedNs (w 0) (l + 1) = true
  · have level : l = 1 := by
      simp only [isAssignedRam, isAssignedNs, isLeafAt, Bool.and_eq_true, Bool.or_eq_true, beq_iff_eq] at mapped
      omega
    subst level
    exact .inr ⟨rfl, .inr mapped⟩
  by_cases assigned : isAssigned (w 0) = true
  · refine .inr ⟨?_, .inl assigned⟩
    -- a level-1 table that starts with an assigned entry is never homogeneous
    rw [isHomogeneous_range, isHomogeneous, assigned] at same
    simp only [Bool.or_true, if_true] at same
    by_contra other
    rw [if_pos (by omega)] at same
    cases same
  · obtain ⟨desc, hipas, _⟩ := foldDesc_plain mapped assigned made
    rw [view_attr desc hipas]
    left
    split <;> exact trivial

end Islet.Rmm.Rtt
